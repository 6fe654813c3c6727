import Daichod.Engine.Session
import Daichod.Rpc.Mutation

/-!
# Daichod.Rpc.TransactionService

`GetTransaction` and the three mutating handlers of `rpc/transaction_service.cpp`.
`planTransaction` resolves and validates everything against the book before an engine object
is touched; `applyPlan` then runs the setters inside the handler's edit.

The validation loop sums the values *requested*; the setters round what is *stored*. The
two meet again in `Daichod.Properties.ExactMoney`.

## Proof shape

A plan is applied in three stages: the header, the destruction of the splits that the request
leaves out, and the setters of each split. No stage touches what another one is about. So the
header is known after the first (`applyPlan_header`), and a property of splits that the setters
establish is carried through all three (`applyPlan_forall`), given that it survives being marked
for destruction.
-/

namespace Daichod

/-- `SplitPlan`. -/
structure SplitPlan where
  existing : Option Guid
  account : Guid
  value : GncNumeric
  quantity : GncNumeric
  memo : String
  action : String
  reconcile : Char
  deriving Repr, DecidableEq

/-- `TransactionPlan`. -/
structure TransactionPlan where
  currency : Commodity
  postDate : GDate
  enterTime : Int64
  num : String
  description : String
  splits : List SplitPlan
  doomed : List Guid

/-! ### Applying a plan -/

/-- The setters of `ApplyPlan`'s loop, on one split. -/
def SplitPlan.set (book : Book) (valueFraction : Option Int64) (plan : SplitPlan)
    (split : Split) : Split :=
  split
    |>.setAccount plan.account
    |>.setValue valueFraction plan.value
    |>.setAmount (amountFraction book plan.account) plan.quantity
    |>.setMemo plan.memo
    |>.setAction plan.action
    |>.setReconcile plan.reconcile

/-- One round of `ApplyPlan`'s loop; `guid` is what `xaccMallocSplit` would allocate. -/
def applySplitPlan (book : Book) (guid : Guid) (transaction : Transaction) (plan : SplitPlan) :
    Transaction :=
  let set := plan.set book (transaction.valueFraction book)
  match plan.existing with
  | some existing => transaction.editSplit existing set
  | none => transaction.addSplit (set (Split.blank guid plan.account))

/-- `ApplyPlan`'s loop, from the `i`-th split plan on. -/
def applySplitPlans (book : Book) (newGuid : ℕ → Guid) :
    ℕ → Transaction → List SplitPlan → Transaction
  | _, transaction, [] => transaction
  | i, transaction, plan :: plans =>
    applySplitPlans book newGuid (i + 1) (applySplitPlan book (newGuid (i + 1)) transaction plan)
      plans

/-- `ApplyPlan`. -/
def applyPlan [Engine] (newGuid : ℕ → Guid) (book : Book) (plan : TransactionPlan)
    (transaction : Transaction) : Transaction :=
  let transaction := transaction
    |>.setCurrency plan.currency
    |>.setDatePostedGDate plan.postDate
    |>.setDateEnteredSecs plan.enterTime
    |>.setNum plan.num
    |>.setDescription plan.description
  let transaction := plan.doomed.foldl (fun t split => t.destroySplit split) transaction
  applySplitPlans book newGuid 0 transaction plan.splits

/-! ### What applying a plan leaves alone -/

section ApplyPlan

variable {book : Book} {newGuid : ℕ → Guid}

/-- What holds of a split list and is kept by every change a plan makes holds of the
transaction afterwards. -/
theorem applySplitPlans_induction {P : Transaction → Prop} {plans : List SplitPlan}
    (hstep : ∀ transaction guid, ∀ plan ∈ plans, P transaction →
      P (applySplitPlan book guid transaction plan))
    {transaction : Transaction} (h : P transaction) (i : ℕ) :
    P (applySplitPlans book newGuid i transaction plans) := by
  induction plans generalizing i transaction with
  | nil => exact h
  | cons plan plans ih =>
    exact ih (fun t g p hp => hstep t g p (List.mem_cons_of_mem _ hp))
      (hstep _ _ plan List.mem_cons_self h) (i + 1)

/-- Setting a split leaves the header alone. -/
theorem applySplitPlan_header (guid : Guid) (t : Transaction) (plan : SplitPlan) :
    SameHeader t (applySplitPlan book guid t plan) := by
  unfold applySplitPlan
  cases plan.existing <;> exact ⟨rfl, rfl, rfl, rfl, rfl, rfl, rfl⟩

/-- So does setting them all. -/
theorem applySplitPlans_header (i : ℕ) (t : Transaction) (plans : List SplitPlan) :
    SameHeader t (applySplitPlans book newGuid i t plans) :=
  applySplitPlans_induction (fun t' g p _ h => h.trans (applySplitPlan_header g t' p))
    (SameHeader.refl t) i

/-- And destroying one. -/
theorem destroySplit_header (guid : Guid) (t : Transaction) : SameHeader t (t.destroySplit guid) := by
  unfold Transaction.destroySplit
  split
  · exact SameHeader.refl t
  · exact ⟨rfl, rfl, rfl, rfl, rfl, rfl, rfl⟩

/-- And destroying several. -/
theorem destroySplits_header (guids : List Guid) (t : Transaction) :
    SameHeader t (guids.foldl (fun t split => t.destroySplit split) t) := by
  induction guids generalizing t with
  | nil => exact SameHeader.refl t
  | cons g guids ih => exact (destroySplit_header g t).trans (ih _)

/-- The header setters of `ApplyPlan`, before any split is touched. -/
def TransactionPlan.setHeader [Engine] (plan : TransactionPlan) (t : Transaction) : Transaction :=
  t |>.setCurrency plan.currency
    |>.setDatePostedGDate plan.postDate
    |>.setDateEnteredSecs plan.enterTime
    |>.setNum plan.num
    |>.setDescription plan.description

/-- The three stages. -/
theorem applyPlan_eq [Engine] (plan : TransactionPlan) (t : Transaction) :
    applyPlan newGuid book plan t
      = applySplitPlans book newGuid 0
          (plan.doomed.foldl (fun t split => t.destroySplit split) (plan.setHeader t))
          plan.splits := rfl

/-- **The header** is the one planned. -/
theorem applyPlan_header [Engine] (plan : TransactionPlan) (t : Transaction) :
    SameHeader (plan.setHeader t) (applyPlan newGuid book plan t) :=
  (destroySplits_header _ _).trans (applySplitPlans_header _ _ _)

/-! Properties of single splits that the setters establish and that marking and re-rating a
split leave alone hold of all splits afterwards. -/

section Splits

variable {P : Split → Prop}

/-- The setters of a plan give `P` to a split: to one that has it, and to a new one. -/
def SplitPlan.Gives (book : Book) (P : Split → Prop) (plan : SplitPlan) : Prop :=
  ∀ fraction s, (∀ f ∈ fraction, 0 < f.toInt) → (P s ∨ ∃ guid, s = Split.blank guid plan.account) →
    P (plan.set book fraction s)

/-- What the setters establish whatever the split was like. -/
theorem SplitPlan.gives_of_set {plan : SplitPlan} (h : ∀ fraction s, P (plan.set book fraction s)) :
    plan.Gives book P := fun fraction s _ _ => h fraction s

/-- The fraction of a currency is positive. -/
theorem Transaction.valueFraction_pos {t : Transaction} :
    ∀ f ∈ t.valueFraction book, 0 < f.toInt := by
  intro f hf
  obtain ⟨name, -, hname⟩ := Option.bind_eq_some_iff.mp hf
  exact Book.fraction_pos hname

/-- Setting one split. -/
theorem applySplitPlan_forall {guid : Guid} {t : Transaction} {plan : SplitPlan}
    (hset : plan.Gives book P) (h : ∀ s ∈ t.splits, P s) :
    ∀ s ∈ (applySplitPlan book guid t plan).splits, P s := by
  unfold applySplitPlan
  cases plan.existing with
  | none =>
    -- It is a split of the transaction that is changed, or a new one at its end.
    intro s hs
    rcases List.mem_append.mp hs with hs | hs
    · exact h s hs
    · rw [List.mem_singleton.mp hs]
      exact hset _ _ Transaction.valueFraction_pos (Or.inr ⟨guid, rfl⟩)
  | some existing =>
    intro s hs
    obtain ⟨s₀, hs₀, rfl⟩ := List.mem_map.mp hs
    split
    · exact hset _ _ Transaction.valueFraction_pos (Or.inl (h s₀ hs₀))
    · exact h s₀ hs₀

section Mark

variable (hmark : ∀ s : Split, P s → P { s with destroying := true })
include hmark

/-- Destroying one. -/
theorem destroySplit_forall {guid : Guid} {t : Transaction} (h : ∀ s ∈ t.splits, P s) :
    ∀ s ∈ (t.destroySplit guid).splits, P s := by
  unfold Transaction.destroySplit
  split
  · exact h
  · intro s hs
    obtain ⟨s₀, hs₀, rfl⟩ := List.mem_map.mp hs
    split
    · exact hmark s₀ (h s₀ hs₀)
    · exact h s₀ hs₀

/-- Destroying several. -/
theorem destroySplits_forall {guids : List Guid} {t : Transaction} (h : ∀ s ∈ t.splits, P s) :
    ∀ s ∈ (guids.foldl (fun t split => t.destroySplit split) t).splits, P s := by
  induction guids generalizing t with
  | nil => exact h
  | cons g guids ih => exact ih (destroySplit_forall hmark h)

end Mark

variable [Engine] (hrate : ∀ (t : Transaction) name (s : Split), P s →
  P { s with value := Engine.rerate t name s })
include hrate

/-- A new currency rounds the splits anew. -/
theorem setHeader_forall {plan : TransactionPlan} {t : Transaction}
    (h : ∀ s ∈ t.splits, P s) : ∀ s ∈ (plan.setHeader t).splits, P s := by
  have hsplits : (plan.setHeader t).splits = (t.setCurrency plan.currency).splits := rfl
  rw [hsplits, Transaction.setCurrency]
  dsimp only
  split
  · exact h
  · intro s hs
    obtain ⟨s₀, hs₀, rfl⟩ := List.mem_map.mp hs
    exact hrate t plan.currency.name s₀ (h s₀ hs₀)

/-- **All splits**, after the whole plan. -/
theorem applyPlan_forall (hmark : ∀ s : Split, P s → P { s with destroying := true })
    {plan : TransactionPlan} {t : Transaction} (hset : ∀ p ∈ plan.splits, p.Gives book P)
    (h : ∀ s ∈ t.splits, P s) : ∀ s ∈ (applyPlan newGuid book plan t).splits, P s := by
  rw [applyPlan_eq]
  refine applySplitPlans_induction (P := fun t => ∀ s ∈ t.splits, P s)
    (fun t g p hp ht => applySplitPlan_forall (hset p hp) ht) ?_ 0
  exact destroySplits_forall hmark (setHeader_forall hrate h)

end Splits

/-- Every split carries a flag the engine sets. -/
def Transaction.Flagged (t : Transaction) : Prop := ∀ s ∈ t.splits, SettableFlag s.reconcile

/-- Reconcile flags stay those that the engine knows. -/
theorem applyPlan_flagged [Engine] {plan : TransactionPlan} {t : Transaction}
    (hplan : ∀ splitPlan ∈ plan.splits, SettableFlag splitPlan.reconcile) (h : t.Flagged) :
    (applyPlan newGuid book plan t).Flagged :=
  applyPlan_forall (fun _ _ _ hs => hs) (fun _ hs => hs)
    (fun p hp => SplitPlan.gives_of_set fun _ _ => hplan p hp) h

end ApplyPlan

/-! ### Making a plan -/

/-- `gnc_numeric_to_string`. -/
def gncNumericToString (v : GncNumeric) : String :=
  toString v.num.toInt ++ "/" ++ toString v.denom.toInt

/-- The flag a spec split asks for. Full replacement: UNSPECIFIED, the proto3 default, is
mapped to `n`. -/
def planReconcile (state : Shim.ReconcileState) (field : String) : Except ShimError Char :=
  if state = .unspecified then .ok nrec
  else reconcileStateFromProto state (field ++ ".reconcile_state")

/-- A state that a client may set has such a flag. -/
theorem planReconcile_settable {state : Shim.ReconcileState} {field : String} {flag : Char}
    (h : planReconcile state field = .ok flag) : SettableFlag flag := by
  unfold planReconcile at h
  split at h
  · cases h
    exact Or.inl rfl
  · exact reconcileStateFromProto_settable h

variable [Engine]

/-- The split of the engine transaction that a spec split names, if it names one. -/
def findExisting (engineSplits : Option (List Split)) (claimed : List String) (field : String)
    (spec : Shim.Split) : Except ShimError (Option Guid) :=
  if spec.guid.isEmpty then .ok none
  else
    match engineSplits with
    | none => .error ⟨.invalidArgument,
        "split guid must be empty on create; the engine assigns", field ++ ".guid"⟩
    | some splits =>
      match splits.find? fun split => Engine.guidToString split.guid = spec.guid with
      | none => .error ⟨.invalidArgument,
          "split " ++ spec.guid ++ " does not belong to this transaction", field ++ ".guid"⟩
      | some split =>
        if spec.guid ∈ claimed then
          .error ⟨.invalidArgument, "split " ++ spec.guid ++ " appears twice", field ++ ".guid"⟩
        else .ok (some split.guid)

/-- One round of `PlanTransaction`'s loop, up to the sum. -/
def planSplit (book : Book) (engineSplits : Option (List Split)) (claimed : List String)
    (field : String) (spec : Shim.Split) : Except ShimError SplitPlan := do
  let existing ← findExisting engineSplits claimed field spec
  let account ← findAccount book spec.accountGuid (field ++ ".account_guid")
  let value ← numericFromProto spec.value (field ++ ".value")
  let quantity ← numericFromProto spec.quantity (field ++ ".quantity")
  let reconcile ← planReconcile spec.reconcileState field
  return { existing, account, value, quantity, memo := spec.memo, action := spec.action,
           reconcile }

/-- `"transaction.splits[" + std::to_string(i) + "]"`. -/
def splitField (i : ℕ) : String := "transaction.splits[" ++ toString i ++ "]"

/-- `PlanTransaction`'s loop over the spec splits, from the `i`-th on: the plans, the names
claimed and the sum of the values. -/
def planSplits (book : Book) (engineSplits : Option (List Split)) :
    ℕ → List String → GncNumeric → List Shim.Split →
      Except ShimError (List SplitPlan × List String × GncNumeric)
  | _, claimed, sum, [] => .ok ([], claimed, sum)
  | i, claimed, sum, spec :: specs => do
    let plan ← planSplit book engineSplits claimed (splitField i) spec
    let claimed := if spec.guid.isEmpty then claimed else spec.guid :: claimed
    let sum := gncNumericAdd sum plan.value
    ensure (sum.check = true) .invalidArgument "split values overflow engine arithmetic"
      (splitField i)
    let (plans, claimed, sum) ← planSplits book engineSplits (i + 1) claimed sum specs
    return (plan :: plans, claimed, sum)

/-- The currency a spec asks for. -/
def planCurrency (book : Book) (spec : Shim.Transaction) : Except ShimError Commodity :=
  match spec.currency with
  | none => .error ⟨.invalidArgument, "currency is required", "transaction.currency"⟩
  | some id => findCommodity book id "transaction.currency"

/-- The post date a spec asks for. -/
def planPostDate (spec : Shim.Transaction) : Except ShimError GDate :=
  match spec.postDate with
  | none => .error ⟨.invalidArgument, "post_date is required", "transaction.post_date"⟩
  | some date => dateFromProto date "transaction.post_date"

/-- The engine splits a spec leaves out. -/
def doomedSplits (engineSplits : Option (List Split)) (claimed : List String) : List Guid :=
  ((engineSplits.getD []).filter fun split => Engine.guidToString split.guid ∉ claimed).map
    Split.guid

/-- `PlanTransaction`; `now` is `gnc_time(nullptr)`, which an enter time of 0 stands for. -/
def planTransaction (now : Int64) (book : Book) (spec : Shim.Transaction)
    (existing : Option Transaction) : Except ShimError TransactionPlan := do
  let currency ← planCurrency book spec
  ensure (gncCommodityIsCurrency currency = true) .currencyMismatch
    "transaction currency is not a currency commodity" "transaction.currency"
  let postDate ← planPostDate spec
  let enterTime := if spec.enterTimeUtc ≠ 0 then spec.enterTimeUtc else now
  ensure (spec.splits ≠ []) .invalidArgument "at least one split is required"
    "transaction.splits"
  let engineSplits := existing.map Transaction.splits
  let (splits, claimed, sum) ← planSplits book engineSplits 0 [] gncNumericZero spec.splits
  ensure (sum.zeroP = true) .unbalancedTransaction
    ("split values sum to " ++ gncNumericToString sum ++ ", expected zero") "transaction.splits"
  let doomed := doomedSplits engineSplits claimed
  return { currency, postDate, enterTime, num := spec.num, description := spec.description,
           splits, doomed }

/-! ### What an accepted plan has been checked for -/

/-- An accepted split: each of its checks passed. -/
theorem planSplit_ok {book : Book} {engineSplits : Option (List Split)} {claimed : List String}
    {field : String} {spec : Shim.Split} {plan : SplitPlan}
    (h : planSplit book engineSplits claimed field spec = .ok plan) :
    findExisting engineSplits claimed field spec = .ok plan.existing ∧
      findAccount book spec.accountGuid (field ++ ".account_guid") = .ok plan.account ∧
      numericFromProto spec.value (field ++ ".value") = .ok plan.value ∧
      numericFromProto spec.quantity (field ++ ".quantity") = .ok plan.quantity ∧
      plan.memo = spec.memo ∧ plan.action = spec.action ∧
      planReconcile spec.reconcileState field = .ok plan.reconcile := by
  unfold planSplit at h
  obtain ⟨existing, hexisting, h⟩ := except_bind_ok h
  obtain ⟨account, haccount, h⟩ := except_bind_ok h
  obtain ⟨value, hvalue, h⟩ := except_bind_ok h
  obtain ⟨quantity, hquantity, h⟩ := except_bind_ok h
  obtain ⟨reconcile, hreconcile, h⟩ := except_bind_ok h
  obtain rfl := Except.ok.inj h
  exact ⟨hexisting, haccount, hvalue, hquantity, rfl, rfl, hreconcile⟩

/-- One round of the loop. -/
theorem planSplits_cons_ok {book : Book} {engineSplits : Option (List Split)} {i : ℕ}
    {claimed : List String} {sum : GncNumeric} {spec : Shim.Split} {specs : List Shim.Split}
    {r : List SplitPlan × List String × GncNumeric}
    (h : planSplits book engineSplits i claimed sum (spec :: specs) = .ok r) :
    ∃ plan plans, planSplit book engineSplits claimed (splitField i) spec = .ok plan ∧
      (gncNumericAdd sum plan.value).check = true ∧
      planSplits book engineSplits (i + 1)
        (if spec.guid.isEmpty then claimed else spec.guid :: claimed)
        (gncNumericAdd sum plan.value) specs = .ok (plans, r.2) ∧ r.1 = plan :: plans := by
  unfold planSplits at h
  obtain ⟨plan, hplan, h⟩ := except_bind_ok h
  obtain ⟨_, hcheck, h⟩ := except_bind_ok h
  obtain ⟨⟨plans, claimed', sum'⟩, hrest, h⟩ := except_bind_ok h
  obtain rfl := Except.ok.inj h
  exact ⟨plan, plans, hplan, ensure_ok hcheck, hrest, rfl⟩

/-- Every split plan comes from a spec split that passed its checks. -/
theorem planSplits_forall {book : Book} {engineSplits : Option (List Split)}
    {P : Shim.Split → SplitPlan → Prop}
    (hP : ∀ claimed field spec plan,
      planSplit book engineSplits claimed field spec = .ok plan → P spec plan)
    {i : ℕ} {claimed : List String} {sum : GncNumeric} {specs : List Shim.Split}
    {r : List SplitPlan × List String × GncNumeric}
    (h : planSplits book engineSplits i claimed sum specs = .ok r) : List.Forall₂ P specs r.1 := by
  induction specs generalizing i claimed sum r with
  | nil =>
    obtain rfl := Except.ok.inj h
    exact .nil
  | cons spec specs ih =>
    obtain ⟨plan, plans, hplan, -, hrest, hr⟩ := planSplits_cons_ok h
    rw [hr]
    exact .cons (hP _ _ _ _ hplan) (ih hrest)

/-- The checks an accepted plan has passed. -/
theorem planTransaction_ok {now : Int64} {book : Book} {spec : Shim.Transaction}
    {existing : Option Transaction} {plan : TransactionPlan}
    (h : planTransaction now book spec existing = .ok plan) :
    planCurrency book spec = .ok plan.currency ∧
      gncCommodityIsCurrency plan.currency = true ∧
      planPostDate spec = .ok plan.postDate ∧ spec.splits ≠ [] ∧
      ∃ claimed sum, planSplits book (existing.map Transaction.splits) 0 [] gncNumericZero
          spec.splits = .ok (plan.splits, claimed, sum) ∧
        sum.zeroP = true ∧ plan.doomed = doomedSplits (existing.map Transaction.splits) claimed ∧
        plan.enterTime = (if spec.enterTimeUtc ≠ 0 then spec.enterTimeUtc else now) ∧
        plan.num = spec.num ∧ plan.description = spec.description := by
  unfold planTransaction at h
  obtain ⟨currency, hcurrency, h⟩ := except_bind_ok h
  obtain ⟨_, hiscurrency, h⟩ := except_bind_ok h
  obtain ⟨postDate, hpostDate, h⟩ := except_bind_ok h
  obtain ⟨_, hsplits, h⟩ := except_bind_ok h
  obtain ⟨⟨splits, claimed, sum⟩, hplans, h⟩ := except_bind_ok h
  obtain ⟨_, hzero, h⟩ := except_bind_ok h
  obtain rfl := Except.ok.inj h
  exact ⟨hcurrency, ensure_ok hiscurrency, hpostDate, ensure_ok hsplits, claimed, sum, hplans,
    ensure_ok hzero, rfl, rfl, rfl, rfl⟩

/-- An accepted date is one of the calendar. -/
theorem planTransaction_date_valid {now : Int64} {book : Book} {spec : Shim.Transaction}
    {existing : Option Transaction} {plan : TransactionPlan}
    (h : planTransaction now book spec existing = .ok plan) : plan.postDate.valid = true := by
  obtain ⟨-, -, hdate, -⟩ := planTransaction_ok h
  unfold planPostDate at hdate
  split at hdate
  · cases hdate
  · exact dateFromProto_valid hdate

/-- What every split plan has been checked for. -/
theorem planTransaction_forall {now : Int64} {book : Book} {spec : Shim.Transaction}
    {existing : Option Transaction} {plan : TransactionPlan} {P : SplitPlan → Prop}
    (hP : ∀ claimed field spec p,
      planSplit book (existing.map Transaction.splits) claimed field spec = .ok p → P p)
    (h : planTransaction now book spec existing = .ok plan) : ∀ p ∈ plan.splits, P p := by
  obtain ⟨-, -, -, -, claimed, sum, hplans, -⟩ := planTransaction_ok h
  have hall : List.Forall₂ (fun (_ : Shim.Split) (p : SplitPlan) => P p) _ _ :=
    planSplits_forall (fun _ _ _ _ hplan => hP _ _ _ _ hplan) hplans
  intro p hp
  obtain ⟨i, hi, rfl⟩ := List.mem_iff_getElem.mp hp
  have hlength : spec.splits.length = plan.splits.length := hall.length_eq
  exact (List.forall₂_iff_get.mp hall).2 i (hlength ▸ hi) hi

/-- Accepted states may all be set. -/
theorem planTransaction_settable {now : Int64} {book : Book} {spec : Shim.Transaction}
    {existing : Option Transaction} {plan : TransactionPlan}
    (h : planTransaction now book spec existing = .ok plan) :
    ∀ splitPlan ∈ plan.splits, SettableFlag splitPlan.reconcile :=
  planTransaction_forall (fun _ _ _ _ hplan =>
    planReconcile_settable (planSplit_ok hplan).2.2.2.2.2.2) h

/-- Every planned split goes into an account of the book. -/
theorem planTransaction_accounts {now : Int64} {book : Book} {spec : Shim.Transaction}
    {existing : Option Transaction} {plan : TransactionPlan}
    (h : planTransaction now book spec existing = .ok plan) :
    ∀ splitPlan ∈ plan.splits, (book.account splitPlan.account).isSome = true :=
  planTransaction_forall (fun _ _ _ _ hplan => by
    obtain ⟨-, a, ha⟩ := findAccount_ok (planSplit_ok hplan).2.1
    rw [ha]
    rfl) h

/-! ### Handlers -/

variable [Wire]

/-- The transaction behind a handle. -/
def derefTransaction (guid : Guid) : Exec Transaction := do
  return ((← get).book.transaction guid).getD .blank

/-- `GetTransaction`. -/
def getTransaction (guid : String) : Exec Shim.Transaction := do
  let book ← Session.book
  let transaction ← liftValid (findTransaction book guid "guid")
  return transactionToProto transaction (← derefTransaction transaction)

/-- What `GetTransaction` answers. -/
theorem getTransaction_iff {guid : String} {w w' : World} {message : Shim.Transaction} :
    getTransaction guid w = .ok message w' ↔ w.session.isSome = true ∧ ∃ g t,
      findTransaction w.book guid "guid" = .ok g ∧ w.book.transaction g = some t ∧
        message = transactionToProto g t ∧ w = w' := by
  simp only [getTransaction, Session.run_book_bind_iff, run_liftValid_bind_iff]
  refine and_congr_right fun _ => exists_congr fun g => ?_
  constructor
  · rintro ⟨hg, hrun⟩
    obtain ⟨-, t, ht⟩ := findTransaction_ok hg
    obtain ⟨rfl, rfl⟩ : transactionToProto g ((w.book.transaction g).getD .blank) = message ∧
        w = w' := by
      cases hrun
      exact ⟨rfl, rfl⟩
    refine ⟨t, hg, ht, ?_, rfl⟩
    rw [ht]
    rfl
  · rintro ⟨t, hg, ht, rfl, rfl⟩
    refine ⟨hg, ?_⟩
    show EStateM.Result.ok (transactionToProto g ((w.book.transaction g).getD .blank)) w = _
    rw [ht]
    rfl

/-- `PostTransaction`. -/
def postTransaction (request : Shim.PostTransactionRequest) (fate : Fate)
    (recordPending : PendingRecorder Shim.Transaction) : Exec Shim.Transaction := do
  let spec := request.transaction
  unless spec.guid.isEmpty do
    throwShim .invalidArgument "guid must be empty on create; the engine assigns"
      "transaction.guid"
  let book ← Session.book
  let plan ← liftValid (planTransaction fate.gncTime book spec none)
  let transaction := fate.newGuid 0
  onStore (.write (·.insert (.transaction transaction) Transaction.blank))
  onStore (.beginEdit (.transaction transaction))
  onStore (.write (editTransaction transaction (applyPlan fate.newGuid book plan)))
  let out := transactionToProto transaction (← derefTransaction transaction)
  recordPending out
  finishEdit fate (.transaction transaction)
  return out

/-- `UpdateTransaction`. -/
def updateTransaction (request : Shim.UpdateTransactionRequest) (fate : Fate)
    (recordPending : PendingRecorder Shim.Transaction) : Exec Shim.Transaction := do
  let spec := request.transaction
  if spec.guid.isEmpty then
    throwShim .invalidArgument "guid is required on update" "transaction.guid"
  let book ← Session.book
  let transaction ← liftValid (findTransaction book spec.guid "transaction.guid")
  let plan ← liftValid
    (planTransaction fate.gncTime book spec (book.transaction transaction))
  onStore (.beginEdit (.transaction transaction))
  onStore (.write (editTransaction transaction (applyPlan fate.newGuid book plan)))
  let out := transactionToProto transaction (← derefTransaction transaction)
  recordPending out
  finishEdit fate (.transaction transaction)
  return out

/-- `DeleteTransaction`. -/
def deleteTransaction (request : Shim.DeleteTransactionRequest) (fate : Fate)
    (recordPending : PendingRecorder Unit) : Exec Unit := do
  let book ← Session.book
  let transaction ← liftValid (findTransaction book request.guid "guid")
  recordPending ()
  onStore (.beginEdit (.transaction transaction))
  onStore (.write (editTransaction transaction Transaction.destroy))
  finishEdit fate (.transaction transaction)

end Daichod
