import Daichod.Engine.CurrencySums
import Daichod.Entities
import Daichod.History
import Daichod.Properties.CrossReplay
import Daichod.Reference.Days
import Daichod.Rpc.GetPrices
import Daichod.Rpc.QuerySplits

/-!
# Daichod.Properties.WireNumerics

**Which numbers on the wire are rationals** (`numerics_valid`): `Numeric.denom` is always
positive, says the proto. What the book stores is, in every run, and so is what is read back
from it (`Entity.rational_steady`). What is added up on the way is not: the handlers pass an
engine sum on unchecked, and an engine sum that does not fit is an error value, with
denominator zero.

## Proof shape

A number in a response comes from one of three places. From the book: there every stored value has
a positive denominator, in every state of every run (`Entity.rational_steady`), since setters
store over the positive fraction of a commodity and plans check what they pass on. From an engine
sum: such a sum is passed on as it is, so the response is right exactly if the sum fits
(`trialBalance_valid_iff`, `balance_iff`, `reconciled_iff`). Or from the record of an earlier
answer, which is as right as that answer was. `numerics_valid` takes the requests one by one.
-/

namespace Daichod

/-! ### Numbers in messages -/

namespace Shim

/-- An exact rational: the denominator is positive. -/
def Numeric.Valid (numeric : Numeric) : Prop := 0 < numeric.denom.toInt

instance (numeric : Numeric) : Decidable numeric.Valid :=
  inferInstanceAs (Decidable (0 < _))

/-- The numbers in a split. -/
def Split.numerics (split : Split) : List Numeric := [split.value, split.quantity]

/-- The numbers in a transaction. -/
def Transaction.numerics (transaction : Transaction) : List Numeric :=
  transaction.splits.flatMap Split.numerics

/-- The number in a price. -/
def Price.numerics (price : Price) : List Numeric := [price.value]

/-- The number in the reconcile information. -/
def ReconcileInfo.numerics (info : ReconcileInfo) : List Numeric := [info.reconciledBalance]

/-- The numbers on a page of splits. -/
def QuerySplitsResponse.numerics (response : QuerySplitsResponse) : List Numeric :=
  response.splits.flatMap fun split => split.split.numerics

/-- The numbers in a list of prices. -/
def PriceList.numerics (list : PriceList) : List Numeric := list.prices.flatMap Price.numerics

/-- The number in a balance. -/
def Balance.numerics (balance : Balance) : List Numeric := [balance.amount]

/-- The numbers in a trial balance. -/
def TrialBalance.numerics (balance : TrialBalance) : List Numeric :=
  balance.entries.map TrialBalanceEntry.sum

end Shim

/-- Every number of a message is valid. -/
def AllValid (numerics : List Shim.Numeric) : Prop := ∀ numeric ∈ numerics, numeric.Valid

/-! ### What the book stores -/

/-- A split with rational amounts. -/
structure Split.Rational (split : Split) : Prop where
  value : 0 < split.value.denom.toInt
  amount : 0 < split.amount.denom.toInt

/-- The amounts of an entity are rational. -/
def Entity.Rational : (ref : EntityRef) → Entity ref → Prop
  | .account _, _ => True
  | .transaction _, transaction => ∀ split ∈ Transaction.splits transaction, split.Rational
  | .price _, price => 0 < (Price.value price).denom.toInt

section Stored

variable [Engine]

/-- `xaccTransSetCurrency` stores what it re-rates with `xaccSplitSetValue`, which keeps the old
value rather than an error value. -/
def Engine.RerateKeepsRational : Prop :=
  ∀ transaction name split, 0 < (Split.value split).denom.toInt →
    0 < (Engine.rerate transaction name split).denom.toInt

omit [Engine] in
/-- The setters of a plan store rational amounts. -/
theorem SplitPlan.gives_rational {book : Book} {plan : SplitPlan}
    (hvalue : 0 < plan.value.denom.toInt) (hquantity : 0 < plan.quantity.denom.toInt) :
    plan.Gives book Split.Rational := by
  intro fraction s hfraction hs
  have hold : s.Rational := by
    rcases hs with hs | ⟨guid, rfl⟩
    · exact hs
    · have hzero : 0 < gncNumericZero.denom.toInt := by decide
      exact ⟨hzero, hzero⟩
  have hamount : ∀ f ∈ amountFraction book plan.account, 0 < f.toInt := by
    intro f hf
    obtain ⟨a, -, ha⟩ := Option.bind_eq_some_iff.mp hf
    obtain ⟨name, -, hname⟩ := Option.bind_eq_some_iff.mp ha
    exact Book.fraction_pos hname
  exact ⟨storeAmount_denom_pos hfraction hold.value hvalue,
    storeAmount_denom_pos hamount hold.amount hquantity⟩

/-- **Stored amounts are rational, for ever.** -/
theorem Entity.rational_steady (hrerate : Engine.RerateKeepsRational) :
    Entity.Steady Entity.Rational where
  account _ _ := trivial
  planned now book spec existing plan hplan newGuid g t ht := by
    have hold : ∀ s ∈ t.splits, s.Rational := by
      rcases ht with rfl | ht
      · intro s hs
        cases hs
      · exact ht
    -- Rounding is to the fraction of a commodity, which is positive; what is not rounded was
    -- checked.
    refine applyPlan_forall (fun t name s hs => ⟨hrerate t name s hs.value, hs.amount⟩)
      (fun s hs => ⟨hs.value, hs.amount⟩) (fun p hp => ?_) hold
    refine planTransaction_forall (P := SplitPlan.Gives book Split.Rational)
      (fun _ _ _ p hsplit => ?_) hplan p hp
    obtain ⟨-, -, hvalue, hquantity, -⟩ := planSplit_ok hsplit
    exact SplitPlan.gives_rational (numericFromProto_ok hvalue).2 (numericFromProto_ok hquantity).2
  destroyed g t h := by
    unfold Transaction.destroy
    split
    · exact h
    · exact h
  settled g t h s hs := h s (List.mem_filter.mp hs).1
  rerounded g t account commodity h s hs := by
    obtain ⟨s₀, hs₀, rfl⟩ := List.mem_map.mp hs
    have hold := h s₀ hs₀
    split
    · exact ⟨hold.value, storeRounded_denom_pos commodity.fraction_pos hold.amount⟩
    · exact hold
  priced _ _ _ _ _ _ h := h
  listed _ _ h := h
  relisted g t r hlisted h s hs := h s (hlisted.splits.mem_iff.mp hs)

/-! ### What is read back from it -/

/-- A stored split is shown with its own values. -/
theorem splitToProto_valid {split : Split} (h : split.Rational) :
    AllValid (splitToProto split).numerics := by
  intro numeric hnumeric
  rcases List.mem_pair.mp hnumeric with rfl | rfl
  · exact h.value
  · exact h.amount

/-- So are all splits of a transaction. -/
theorem transactionToProto_valid {g : Guid} {t : Transaction} (h : ∀ s ∈ t.splits, s.Rational) :
    AllValid (transactionToProto g t).numerics := by
  intro numeric hnumeric
  obtain ⟨split, hsplit, hmem⟩ := List.mem_flatMap.mp hnumeric
  obtain ⟨s, hs, rfl⟩ := List.mem_map.mp hsplit
  exact splitToProto_valid (h s (List.mem_filter.mp hs).1) numeric hmem

/-- And a price. -/
theorem priceToProto_valid {g : Guid} {p : Price} (h : 0 < p.value.denom.toInt) :
    AllValid (priceToProto g p).numerics := by
  intro numeric hnumeric
  rw [List.mem_singleton.mp hnumeric]
  exact h

/-- A transaction answered from a rational table. -/
theorem transactionResponse_valid {table : Finmap Entity} (h : table.All Entity.Rational)
    (guid : Guid) : AllValid (transactionResponse guid table).numerics := by
  unfold transactionResponse
  cases ht : (table.lookup (.transaction guid) : Option Transaction) with
  | none =>
    refine transactionToProto_valid fun s hs => ?_
    cases hs
  | some t => exact transactionToProto_valid (h (.transaction guid) t ht)

end Stored

/-! ### What the trial balance adds up

The sums of the trial balance are engine sums over the listing in its order. A sum that left the
range once is an error value from then on. -/

/-- The loop keeps its sums by currency. -/
theorem trialSums_eq (listing : Session.SplitListing) : trialSums listing
    = KeyedSums.sums gncNumericAdd gncNumericZero (keyedEntries trialKey listing) :=
  foldl_keyedEntries trialKey

/-- In every currency the sums of the first values, in the order listed, all fit. -/
def TrialFits (listing : Session.SplitListing) : Prop :=
  ∀ key front, front <+: valuesUnder trialKey key listing → SumRepresentable front

/-- A good engine sum has a positive denominator. -/
theorem runningSum_check_iff (values : List GncNumeric) :
    0 < (runningSum values).denom.toInt ↔ (runningSum values).check = true :=
  ⟨GncNumeric.check_of_pos, fun h => (sumsTo_runningSum h).denom_pos⟩

/-- **The trial balance is right** exactly if every running sum of the listing fits. -/
theorem trialBalance_valid_iff {listing : Session.SplitListing}
    (hvalues : ∀ entry ∈ listing, entry.2.value.check = true) :
    AllValid (Shim.TrialBalance.numerics ⟨(trialSums listing).map trialBalanceEntry⟩) ↔
      TrialFits listing := by
  rw [TrialFits, ← check_sums_iff trialKey hvalues, ← trialSums_eq]
  have hsum : ∀ entry ∈ trialSums listing,
      (0 < entry.2.denom.toInt ↔ entry.2.check = true) := by
    rintro ⟨key, sum⟩ hmem
    rw [trialSums_eq] at hmem
    obtain ⟨-, rfl⟩ := (mem_sums_iff trialKey).mp hmem
    exact runningSum_check_iff _
  constructor
  · intro h entry hentry
    refine (hsum entry hentry).mp (h (numericToProto entry.2) ?_)
    exact List.mem_map.mpr ⟨_, List.mem_map.mpr ⟨entry, hentry, rfl⟩, rfl⟩
  · intro h numeric hnumeric
    obtain ⟨e, he, rfl⟩ := List.mem_map.mp hnumeric
    obtain ⟨entry, hentry, rfl⟩ := List.mem_map.mp he
    exact (hsum entry hentry).mpr (h entry hentry)

/-! ### What the engine adds up

Balances are added up inside the engine, where the sum of a set of splits is all that is known of
them. -/

/-- Where the engine's arithmetic fits: there a balance is a rational, and elsewhere an error
value, whose denominator is zero. -/
structure EngineSums [Engine] [Balances] where
  /-- The balance of an account from the splits that count in each account. -/
  BalanceFits : Book → Guid → CommodityName → Bool → (Guid → Multiset Split) → Prop
  /-- The reconciled balance of some splits. -/
  ReconciledFits : Multiset Split → Prop
  balance_of_fits : ∀ b account target children counted, b.entities.All Entity.Rational →
    BalanceFits b account target children counted →
    0 < (Balances.balance b account target children counted).denom.toInt
  balance_of_not_fits : ∀ b account target children counted, b.entities.All Entity.Rational →
    ¬BalanceFits b account target children counted →
    (Balances.balance b account target children counted).denom = 0
  reconciled_of_fits : ∀ splits : Multiset Split, (∀ s ∈ splits, s.Rational) →
    ReconciledFits splits → 0 < (Engine.reconciledBalance splits).denom.toInt
  reconciled_of_not_fits : ∀ splits : Multiset Split, (∀ s ∈ splits, s.Rational) →
    ¬ReconciledFits splits → (Engine.reconciledBalance splits).denom = 0

namespace EngineSums

variable [Engine] [Balances] (sums : EngineSums) {b : Book}

/-- A balance is a rational exactly if the engine's sum for it fits. -/
theorem balance_iff (hb : b.entities.All Entity.Rational) (account : Guid)
    (target : CommodityName) (children : Bool) (counted : Guid → Multiset Split) :
    0 < (Balances.balance b account target children counted).denom.toInt ↔
      sums.BalanceFits b account target children counted := by
  refine ⟨fun hpos => ?_, sums.balance_of_fits _ _ _ _ _ hb⟩
  by_contra hno
  rw [sums.balance_of_not_fits _ _ _ _ _ hb hno] at hpos
  exact absurd hpos (by decide)

/-- The same for the reconciled balance. -/
theorem reconciled_iff {splits : Multiset Split} (hsplits : ∀ s ∈ splits, s.Rational) :
    0 < (Engine.reconciledBalance splits).denom.toInt ↔ sums.ReconciledFits splits := by
  refine ⟨fun hpos => ?_, sums.reconciled_of_fits _ hsplits⟩
  by_contra hno
  rw [sums.reconciled_of_not_fits _ hsplits hno] at hpos
  exact absurd hpos (by decide)

omit [Engine] [Balances] in
/-- The splits of an account are stored values. -/
theorem accountSplits_rational (hb : b.entities.All Entity.Rational) (account : Guid) :
    ∀ s ∈ b.accountSplits account, s.Rational := by
  intro s hs
  obtain ⟨⟨g, t, ht, hmem⟩, -⟩ := Book.mem_accountSplits.mp hs
  exact hb (.transaction g) t ht s hmem

/-- The reconcile information is right exactly if that sum fits. -/
theorem reconcileInfo_valid_iff (hb : b.entities.All Entity.Rational) {account : Guid}
    {a : Account} : AllValid (reconcileInfoToProto b account a).numerics ↔
      sums.ReconciledFits (b.accountSplits account) := by
  rw [← sums.reconciled_iff (accountSplits_rational hb account)]
  constructor
  · exact fun h => h _ (List.mem_singleton.mpr rfl)
  · intro h numeric hnumeric
    rw [List.mem_singleton.mp hnumeric]
    exact h

/-- The edit of a reconcile date changes no split. -/
theorem setReconcileInfo_valid_iff [Wire] (hrerate : Engine.RerateKeepsRational)
    (hb : b.entities.All Entity.Rational) {account : Guid} {date : GDate} :
    AllValid (setReconcileInfoEdit account b date).response.numerics ↔
      sums.ReconciledFits (b.accountSplits account) := by
  let table := editAccount account (Account.setReconcileLastDate date) b.entities
  have htable : table.All Entity.Rational := (Entity.rational_steady hrerate).editAccount hb _ _
  have hsplits : (b.setEntities table).accountSplits account = b.accountSplits account := by
    have hsame : transactionsIn table = transactionsIn b.entities := transactionsIn_congr fun g =>
      lookup_editAccount_ne (Account.setReconcileLastDate date) (by simp)
    simp only [Book.accountSplits, Book.transactions, Book.setEntities, hsame]
  rw [← hsplits]
  exact sums.reconcileInfo_valid_iff (b := b.setEntities table) htable

end EngineSums

/-! ### What a mutation answers -/

section Mutations

variable [Wire] [Engine] [Balances] (sums : EngineSums)

omit [Balances] in
/-- The numbers in the response of a mutating RPC. -/
def Mutation.numerics : (m : Mutation) → m.Response → List Shim.Numeric
  | .createAccount _, _ => []
  | .updateAccount _, _ => []
  | .deleteAccount _, _ => []
  | .setReconcileInfo _, info => Shim.ReconcileInfo.numerics info
  | .postTransaction _, transaction => Shim.Transaction.numerics transaction
  | .updateTransaction _, transaction => Shim.Transaction.numerics transaction
  | .deleteTransaction _, _ => []
  | .addPrice _, price => Shim.Price.numerics price

/-- The sums in a computed response fit. -/
def Mutation.Fits (b : Book) : Mutation → Prop
  | .setReconcileInfo request => ∀ account,
      findAccount b request.accountGuid "account_guid" = .ok account →
      sums.ReconciledFits (b.accountSplits account)
  | _ => True

/-- **What a mutation computes** on a rational book. -/
theorem Mutation.numerics_valid_iff (hrerate : Engine.RerateKeepsRational) {m : Mutation}
    {fate : Fate} {b : Book} {edit : Edit m.Response} (hb : b.entities.All Entity.Rational)
    (hplan : m.plan fate b = .ok edit) :
    AllValid (m.numerics edit.response) ↔ m.Fits sums b := by
  have hP : Entity.Steady Entity.Rational := Entity.rational_steady hrerate
  have hnone : AllValid [] := by
    intro numeric hnumeric
    cases hnumeric
  -- Only `SetReconcileInfo` answers with a sum.
  cases m with
  | createAccount request => exact iff_of_true hnone trivial
  | updateAccount request => exact iff_of_true hnone trivial
  | deleteAccount request => exact iff_of_true hnone trivial
  | deleteTransaction request => exact iff_of_true hnone trivial
  | setReconcileInfo request =>
    obtain ⟨account, lastDate, date, haccount, -, -, rfl⟩ := plan_setReconcileInfo_ok hplan
    refine (sums.setReconcileInfo_valid_iff hrerate hb).trans
      ⟨fun h account' haccount' => ?_, fun h => h account haccount⟩
    rw [← Except.ok.inj (haccount.symm.trans haccount')]
    exact h
  | postTransaction request =>
    obtain ⟨plan, haccepted, rfl⟩ := plan_postTransaction_ok hplan
    refine iff_of_true (transactionResponse_valid ?_ _) trivial
    dsimp only
    rw [editTransaction_of_lookup (Finmap.lookup_insert _), Finmap.insert_insert]
    exact hb.insert (hP.planned _ _ _ _ _ haccepted _ _ _ (Or.inl rfl))
  | updateTransaction request =>
    obtain ⟨_, plan, -, haccepted, rfl⟩ := plan_updateTransaction_ok hplan
    refine iff_of_true (transactionResponse_valid ?_ _) trivial
    exact Entity.Kept.editTransaction hb fun tx htx =>
      hP.planned _ _ _ _ _ haccepted _ _ _ (Or.inr htx)
  | addPrice request =>
    obtain ⟨_, _, _, _, _, -, -, -, -, -, hvalue, rfl⟩ := plan_addPrice_ok hplan
    exact iff_of_true (priceToProto_valid (numericFromProto_ok hvalue).2) trivial

omit [Engine] [Balances] in
/-- Read back as the same message, a response has the same numbers. -/
theorem sameMessage_numerics {a m : Mutation} (h : a.responseMessage = m.responseMessage)
    {response : a.Response} {read : m.Response}
    (hread : m.codec.parse (a.codec.serialize response) = some read) :
    m.numerics read = a.numerics response := by
  have hsame : ∀ {α : Type} (codec : Codec Bytes α) (x y : α),
      codec.parse (codec.serialize x) = some y → y = x := by
    intro α codec x y hparse
    rw [codec.parse_serialize] at hparse
    exact (Option.some.inj hparse).symm
  cases a <;> cases m <;>
    first | rfl | (cases h; done) | exact congrArg _ (hsame _ _ _ hread)

end Mutations

/-! ### Requests -/

/-- The numbers of a reply, where it is OK. -/
def Reply.numerics {α : Type} (numerics : α → List Shim.Numeric) :
    Reply α → Option (List Shim.Numeric)
  | .ok response => some (numerics response)
  | .error _ | .lost => none

/-- A request has numbers in its reply only when it is OK. -/
theorem numerics_replyOf [Wire] {α : Type} {numerics : α → List Shim.Numeric}
    {r : EStateM.Result Exn World α} {found : List Shim.Numeric} :
    (replyOf r).numerics numerics = some found ↔
      ∃ response w', r = .ok response w' ∧ numerics response = found := by
  cases r with
  | ok response w' => simp [replyOf, Reply.numerics]
  | error e w' =>
    simp only [replyOf]
    cases statusFromException e with
    | none => simp [Reply.numerics]
    | some status => simp [Reply.numerics]

/-- A request that is answered with numbers, with what the engine lists for it. -/
inductive NumericRequest
  | getTransaction (guid : String)
  | querySplits (qofQueryRun : SplitQuery → List FoundSplit) (request : Shim.QuerySplitsRequest)
  | getBalance (request : Shim.GetBalanceRequest)
  | getTrialBalance (listing : Session.SplitListing)
  | getReconcileInfo (guid : String)
  | getPrices (gncPricedbGetPrices : Commodity → Option Commodity → List (Guid × Price))
      (request : Shim.GetPricesRequest)
  | mutate (m : Mutation) (fate : Fate)

namespace NumericRequest

variable [Wire] [Engine] [DayTimes] [Balances]

/-- The numbers in the OK response to a request. -/
def numerics (w : World) : NumericRequest → Option (List Shim.Numeric)
  | getTransaction guid =>
    (replyOf (Daichod.getTransaction guid w)).numerics Shim.Transaction.numerics
  | querySplits run request =>
    (replyOf (Daichod.querySplits run request w)).numerics Shim.QuerySplitsResponse.numerics
  | getBalance request => (replyOf (Daichod.getBalance request w)).numerics Shim.Balance.numerics
  | getTrialBalance listing =>
    (replyOf (Daichod.getTrialBalance listing w)).numerics Shim.TrialBalance.numerics
  | getReconcileInfo guid =>
    (replyOf (Daichod.getReconcileInfo guid w)).numerics Shim.ReconcileInfo.numerics
  | getPrices list request =>
    (replyOf (Daichod.getPrices list request w)).numerics Shim.PriceList.numerics
  | mutate m fate => (replyOf (m.run fate w)).numerics m.numerics

/-- What the engine lists is the book's. -/
def Genuine (b : Book) : NumericRequest → Prop
  | querySplits run _ => ∀ query, ∀ node ∈ run query,
      b.transaction node.transactionGuid = some node.transaction ∧
        node.split ∈ node.transaction.splits
  | getTrialBalance listing => Session.Lists listing b
  | getPrices list _ => ∀ commodity currency, ∀ price ∈ list commodity currency,
      b.price price.1 = some price.2
  | _ => True

variable (sums : EngineSums)

/-- The sums that the response is computed with fit. -/
def Fits (w : World) : NumericRequest → Prop
  | getBalance request => ∀ account asOf target,
      findAccount w.book request.accountGuid "account_guid" = .ok account →
      balanceDay request.asOf = .ok asOf → balanceTarget w.book account request = .ok target →
      sums.BalanceFits w.book account target request.includeChildren
        (w.book.splitsUntil (DayTimes.dmy2time64End asOf))
  | getTrialBalance listing => TrialFits listing
  | getReconcileInfo guid => ∀ account, findAccount w.book guid "guid" = .ok account →
      sums.ReconciledFits (w.book.accountSplits account)
  | mutate m _ => w.journal.resolved m.mutationId = none → m.Fits sums w.book
  | _ => True

/-- Of a call that is answered by a replay: what earlier calls under the mutation id computed,
and the replay may answer with, is of the same message, and its sums fitted then. -/
def OriginsFit (d₀ : Daemon) (es : List Event) : NumericRequest → Prop
  | mutate m _ => (d₀.run es).world.journal.resolved m.mutationId ≠ none →
      ∀ a fate w, Called d₀ es a fate w → a.mutationId = m.mutationId →
        a.responseMessage = m.responseMessage ∧ a.Fits sums w.book
  | _ => True

end NumericRequest

/-! ### Every response -/

section Responses

variable [Wire] [Engine] [DayTimes] [Balances] (sums : EngineSums) {w : World}
  {found : List Shim.Numeric}

/-- **What is read.** -/
theorem NumericRequest.read_valid_iff (hrational : w.book.entities.All Entity.Rational)
    {request : NumericRequest} (hread : ∀ m fate, request ≠ .mutate m fate)
    (hgenuine : request.Genuine w.book) (hfound : request.numerics w = some found) :
    AllValid found ↔ request.Fits sums w := by
  -- What is shown of the book is right; what is added up is right if it fits.
  cases request with
  | getTransaction guid =>
    obtain ⟨response, w', hrun, rfl⟩ := numerics_replyOf.mp hfound
    obtain ⟨-, g, t, -, ht, rfl, -⟩ := getTransaction_iff.mp hrun
    exact iff_of_true (transactionToProto_valid (hrational (.transaction g) t ht)) trivial
  | querySplits run request =>
    obtain ⟨response, w', hrun, rfl⟩ := numerics_replyOf.mp hfound
    obtain ⟨-, filter, -, hpage, -⟩ := querySplits_iff.mp hrun
    refine iff_of_true (fun numeric hnumeric => ?_) trivial
    obtain ⟨entry, hentry, hmem⟩ := List.mem_flatMap.mp hnumeric
    obtain ⟨node, hnode, rfl⟩ := servePage_entry (pageSize_pos request.pageSize) hpage entry hentry
    obtain ⟨ht, hsplit⟩ := hgenuine _ node hnode
    exact splitToProto_valid (hrational (.transaction _) _ ht _ hsplit) numeric hmem
  | getBalance request =>
    obtain ⟨response, w', hrun, rfl⟩ := numerics_replyOf.mp hfound
    obtain ⟨-, account, haccount, asOf, hasOf, target, htarget, rfl, -⟩ := getBalance_iff.mp hrun
    have hiff := sums.balance_iff hrational account target request.includeChildren
      (w.book.splitsUntil (DayTimes.dmy2time64End asOf))
    constructor
    · intro h account' asOf' target' haccount' hasOf' htarget'
      obtain rfl := Except.ok.inj (haccount.symm.trans haccount')
      obtain rfl := Except.ok.inj (hasOf.symm.trans hasOf')
      obtain rfl := Except.ok.inj (htarget.symm.trans htarget')
      exact hiff.mp (h _ (List.mem_singleton.mpr rfl))
    · intro h numeric hnumeric
      rw [List.mem_singleton.mp hnumeric]
      exact hiff.mpr (h account asOf target haccount hasOf htarget)
  | getTrialBalance listing =>
    obtain ⟨response, w', hrun, rfl⟩ := numerics_replyOf.mp hfound
    obtain ⟨-, rfl, -⟩ := getTrialBalance_iff.mp hrun
    refine trialBalance_valid_iff fun entry hentry => ?_
    obtain ⟨ht, hsplit⟩ := Session.mem_of_lists hgenuine hentry
    exact GncNumeric.check_of_pos (hrational (.transaction _) _ ht _ hsplit).value
  | getReconcileInfo guid =>
    obtain ⟨response, w', hrun, rfl⟩ := numerics_replyOf.mp hfound
    obtain ⟨-, account, haccount, rfl, -⟩ := getReconcileInfo_iff.mp hrun
    refine (sums.reconcileInfo_valid_iff hrational).trans
      ⟨fun h account' haccount' => ?_, fun h => h account haccount⟩
    rw [← Except.ok.inj (haccount.symm.trans haccount')]
    exact h
  | getPrices list request =>
    obtain ⟨response, w', hrun, rfl⟩ := numerics_replyOf.mp hfound
    obtain ⟨-, commodity, -, currency, -, dateFrom, -, dateTo, -, rfl, -⟩ := getPrices_iff.mp hrun
    refine iff_of_true (fun numeric hnumeric => ?_) trivial
    obtain ⟨entry, hentry, hmem⟩ := List.mem_flatMap.mp hnumeric
    obtain ⟨⟨g, p⟩, hprice, rfl⟩ := List.mem_map.mp hentry
    have hlisted := hgenuine commodity currency _ (List.mem_filter.mp hprice).1
    exact priceToProto_valid (hrational (.price g) p hlisted) numeric hmem
  | mutate m fate => exact absurd rfl (hread m fate)

omit [DayTimes] in
/-- **What is computed and answered.** -/
theorem Mutation.answered_valid_iff (hrerate : Engine.RerateKeepsRational)
    (hrational : w.book.entities.All Entity.Rational) {m : Mutation} {fate : Fate}
    (hfirst : w.journal.resolved m.mutationId = none)
    (hfound : (replyOf (m.run fate w)).numerics m.numerics = some found) :
    AllValid found ↔ m.Fits sums w.book := by
  obtain ⟨response, w', hrun, rfl⟩ := numerics_replyOf.mp hfound
  have hran := m.ran fate w
  rw [hrun] at hran
  rcases hran.of_ok with ⟨-, row, recorded, hrow, -⟩ | ⟨-, edit, j, hreach, -, rfl, -⟩
  · rw [hfirst] at hrow
    cases hrow
  · exact Mutation.numerics_valid_iff sums hrerate hrational (Mutation.validated_ok hreach.valid).2.2

/-- Rational books at the start and by restoration. -/
structure RationalBooks (b₀ : Book) (es : List Event) : Prop where
  first : b₀.entities.All Entity.Rational
  restored : ∀ book, Event.restore book ∈ es → book.entities.All Entity.Rational

omit [DayTimes] [Balances] in
/-- Then every book of the run is rational. -/
theorem RationalBooks.run (hrerate : Engine.RerateKeepsRational) {config : Config} {b₀ : Book}
    {es es₁ : List Event} (h : RationalBooks b₀ es) (hes : es₁ <+: es) :
    ((Daemon.fresh config b₀).run es₁).world.book.entities.All Entity.Rational :=
  ((Entity.rational_steady hrerate).run h.first fun book hbook =>
    h.restored book (hes.subset hbook)).working

omit [DayTimes] in
/-- **What is replayed** was computed by an earlier call. -/
theorem Mutation.replayed_valid (hrerate : Engine.RerateKeepsRational) {config : Config}
    {b₀ : Book} {es : List Event} (hbooks : RationalBooks b₀ es) {m : Mutation} {fate : Fate}
    (hrun : ((Daemon.fresh config b₀).run es).world = w)
    (hresolved : w.journal.resolved m.mutationId ≠ none)
    (horigins : ∀ a fate w, Called (Daemon.fresh config b₀) es a fate w →
      a.mutationId = m.mutationId → a.responseMessage = m.responseMessage ∧ a.Fits sums w.book)
    (hfound : (replyOf (m.run fate w)).numerics m.numerics = some found) : AllValid found := by
  obtain ⟨response, w', hrunm, rfl⟩ := numerics_replyOf.mp hfound
  have hran := m.ran fate w
  rw [hrunm] at hran
  rcases hran.of_ok with ⟨-, row, recorded, hrow, hparse, hreplay⟩ | ⟨hnone, -⟩
  swap
  · exact absurd hnone hresolved
  obtain ⟨hmem, hid⟩ := Journal.resolved_eq_some.mp hrow
  have hsound := (Daemon.Sound.run config b₀ es).journal
  rw [hrun] at hsound
  obtain ⟨a, fateₐ, wₐ, outcome, hcalled, ha, hbytes, hcomputed⟩ := hsound.applied row hmem
  rw [hbytes, Wire.outcome.parse_serialize] at hparse
  obtain rfl := Option.some.inj hparse
  obtain ⟨hmessage, hfits⟩ := horigins a fateₐ wₐ hcalled (ha.trans hid)
  cases hcomputed with
  | failure happlies hvalid hverdict hthrown hok herror =>
    simp only [MutatingCall.replay, hok, Bool.not_false, if_true] at hreplay
    cases hreplay
  | @success edit _ happlies hvalid hok hserialized herror =>
    have hread : m.codec.parse (a.codec.serialize edit.response) = some response := by
      simp only [MutatingCall.replay, hok, hserialized, Bool.not_true, Bool.false_eq_true,
        if_false, Option.getD_some] at hreplay
      cases hp : m.codec.parse (a.codec.serialize edit.response) with
      | none =>
        have hp' : m.call.codec.parse (a.codec.serialize edit.response) = none := hp
        rw [hp'] at hreplay
        cases hreplay
      | some read =>
        have hp' : m.call.codec.parse (a.codec.serialize edit.response) = some read := hp
        rw [hp'] at hreplay
        rw [Except.ok.inj hreplay]
    obtain ⟨es₁, hes₁, -, rfl⟩ := hcalled
    have hbook : ((Daemon.fresh config b₀).run es₁).world.book.entities.All Entity.Rational :=
      hbooks.run hrerate ((List.prefix_append es₁ _).trans hes₁)
    rw [sameMessage_numerics hmessage hread]
    exact (Mutation.numerics_valid_iff sums hrerate hbook
      (Mutation.validated_ok hvalid).2.2).mpr hfits

/-- **When the numbers on the wire are rationals.** In every run over books with rational
amounts, the OK response to a request has positive denominators only, if the sums it is
computed with fit, and for a replay if those of the calls it may replay did and answered the
same message. Where the response is not a replay, the sums that do not fit are exactly those
that let an error value out. -/
theorem numerics_valid (hrerate : Engine.RerateKeepsRational) {config : Config} {b₀ : Book}
    {es : List Event} (hbooks : RationalBooks b₀ es)
    (hrun : ((Daemon.fresh config b₀).run es).world = w) {request : NumericRequest}
    (hgenuine : request.Genuine w.book) (hfound : request.numerics w = some found) :
    (request.Fits sums w ∧ request.OriginsFit sums (Daemon.fresh config b₀) es →
      AllValid found) ∧
    (AllValid found → request.Fits sums w) := by
  have hrational : w.book.entities.All Entity.Rational := by
    rw [← hrun]
    exact hbooks.run hrerate List.prefix_rfl
  by_cases hread : ∀ m fate, request ≠ .mutate m fate
  · have hiff := NumericRequest.read_valid_iff sums hrational hread hgenuine hfound
    exact ⟨fun h => hiff.mpr h.1, hiff.mp⟩
  · obtain ⟨m, fate, rfl⟩ : ∃ m fate, request = .mutate m fate := by simpa using hread
    by_cases hfirst : w.journal.resolved m.mutationId = none
    · have hiff := Mutation.answered_valid_iff sums hrerate hrational hfirst hfound
      exact ⟨fun h => hiff.mpr (h.1 hfirst), fun h _ => hiff.mp h⟩
    · have hreplayed : ((Daemon.fresh config b₀).run es).world.journal.resolved m.mutationId
          ≠ none := by rwa [hrun]
      exact ⟨fun h => Mutation.replayed_valid sums hrerate hbooks hrun hfirst (h.2 hreplayed)
        hfound, fun _ hnone => absurd hnone hfirst⟩

end Responses

/-! ### A transaction that is too much in another order -/

section Witness

open Reference

attribute [local instance] Reference.engine Reference.wire Reference.dayTimes Reference.balances

/-- Nine million billions from one account to the other, and again: in this order the sum is
never more than that. -/
def postHuge : Mutation :=
  .postTransaction ⟨⟨mutationId '1'⟩,
    transaction "" [split 2 9000000000000000000, split 3 (-9000000000000000000),
      split 2 9000000000000000000, split 3 (-9000000000000000000)]⟩

/-- The daemon that posted it. -/
def hugeRun : Daemon := started.step (.mutate postHuge (calm 16))

/-- The transaction. -/
def huge : Transaction := (hugeRun.world.book.transaction 16).getD .blank

/-- Its splits in the order in which the two deposits come first. -/
def depositsFirst : Session.SplitListing :=
  (huge.splits.filter (·.account == some 2) ++ huge.splits.filter (·.account != some 2)).map
    ((16, huge), ·)

/-- The listing has the splits of the book, each once. -/
theorem depositsFirst_lists : Session.Lists depositsFirst hugeRun.world.book := by
  unfold Session.Lists
  decide +kernel

/-- A rational that fits is a value, -/
theorem fitted_denom_pos {amount : ℚ} (h : FitsInt64 amount.num ∧ FitsInt64 amount.den) :
    0 < (fitted amount).denom.toInt := by
  have hdenom : (fitted amount).denom = Int64.ofInt amount.den := by rw [fitted, if_pos h]
  rw [hdenom, toInt_ofInt_of_fits h.2]
  exact_mod_cast amount.den_pos

/-- and one that does not fit is an error value. -/
theorem fitted_denom_zero {amount : ℚ} (h : ¬(FitsInt64 amount.num ∧ FitsInt64 amount.den)) :
    (fitted amount).denom = 0 := by
  rw [fitted, if_neg h]
  rfl

/-- The reference engine adds up exactly. -/
def referenceSums : EngineSums where
  BalanceFits _ account _ _ counted :=
    let total := ((counted account).map fun s => s.amount.toRat).sum
    FitsInt64 total.num ∧ FitsInt64 total.den
  ReconciledFits splits :=
    FitsInt64 (reconciledTotal splits).num ∧ FitsInt64 (reconciledTotal splits).den
  balance_of_fits _ _ _ _ _ _ := fitted_denom_pos
  balance_of_not_fits _ _ _ _ _ _ := fitted_denom_zero
  reconciled_of_fits _ _ := fitted_denom_pos
  reconciled_of_not_fits _ _ := fitted_denom_zero

/-- Re-rating keeps what a value is. -/
theorem rerate_rational : Engine.RerateKeepsRational := fun _ _ _ h => h

/-- The small book has no numbers. -/
theorem book_rational : book.entities.All Entity.Rational := by
  intro ref e he
  cases ref with
  | transaction g =>
    have hnone := book_transaction g
    rw [Book.transaction, he] at hnone
    cases hnone
  | account g => trivial
  | price g =>
    have hnone : book.price g = none := by
      simp [Book.price, book, Finmap.lookup_insert_of_ne]
    rw [Book.price, he] at hnone
    cases hnone

/-- Two deposits whose sum does not fit: the trial balance has an error value in it. -/
theorem numerics_valid_huge : ∃ found,
    (NumericRequest.getTrialBalance depositsFirst).numerics hugeRun.world = some found ∧
    (((NumericRequest.getTrialBalance depositsFirst).Fits referenceSums hugeRun.world ∧
        (NumericRequest.getTrialBalance depositsFirst).OriginsFit referenceSums
          (Daemon.fresh config book) [.start (starts []), .mutate postHuge (calm 16)] →
            AllValid found) ∧
      (AllValid found →
        (NumericRequest.getTrialBalance depositsFirst).Fits referenceSums hugeRun.world)) := by
  have hopen : hugeRun.world.session.isSome = true := by decide +kernel
  have hfound : (NumericRequest.getTrialBalance depositsFirst).numerics hugeRun.world
      = some (Shim.TrialBalance.numerics ⟨(trialSums depositsFirst).map trialBalanceEntry⟩) :=
    numerics_replyOf.mpr ⟨_, _, getTrialBalance_iff.mpr ⟨hopen, rfl, rfl⟩, rfl⟩
  have hbooks : RationalBooks book [.start (starts []), .mutate postHuge (calm 16)] := by
    refine ⟨book_rational, fun b hb => ?_⟩
    simp at hb
  have hrun : ((Daemon.fresh config book).run
      [.start (starts []), .mutate postHuge (calm 16)]).world = hugeRun.world := rfl
  exact ⟨_, hfound,
    numerics_valid referenceSums rerate_rational hbooks hrun depositsFirst_lists hfound⟩

/-- The post is answered OK, and so is the trial balance of the book, with denominator zero. -/
theorem trialBalance_error_value :
    (replyOf (postHuge.run (calm 16) started.world)).isOk = true ∧
    Session.Lists depositsFirst hugeRun.world.book ∧
    ∃ found, (NumericRequest.getTrialBalance depositsFirst).numerics hugeRun.world
      = some found ∧ ∃ numeric ∈ found, numeric.denom = 0 := by
  have hopen : hugeRun.world.session.isSome = true := by decide +kernel
  refine ⟨by decide +kernel, depositsFirst_lists,
    Shim.TrialBalance.numerics ⟨(trialSums depositsFirst).map trialBalanceEntry⟩,
    numerics_replyOf.mpr ⟨_, _, getTrialBalance_iff.mpr ⟨hopen, rfl, rfl⟩, rfl⟩, ?_⟩
  decide +kernel

end Witness

end Daichod
