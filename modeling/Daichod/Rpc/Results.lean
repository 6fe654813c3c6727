import Daichod.Rpc.Effect

/-!
# Daichod.Rpc.Results

What the edit of each RPC leaves in the table of entities, read entry by entry, and that
every edit keeps a book at rest (`plan_atRest`).

## Proof shape

The setters of an account and the planned changes of a transaction touch few entries of the table.
The first half says what each leaves under its own key, which is what the response shows and what
a later read finds. The second half goes the other way and asks what is true of every entry
afterwards: nothing is left marked for destruction, as settling has removed what was marked.
-/

namespace Daichod

/-! ### Account setters -/

/-- An account after all setters of `CreateAccount` and `UpdateAccount`. -/
def accountSet (spec : Shim.Account) (type : GNCAccountType) (commodity : Commodity)
    (parent : Guid) (account : Account) : Account :=
  setAccountTail spec parent
    { setAccountHead spec type account with commodity := some commodity.name }

section SetAccount

variable {t : Finmap Entity} {guid : Guid} {spec : Shim.Account} {type : GNCAccountType}
  {commodity : Commodity} {parent : Guid} {account : Account}

/-- The setter compares the commodity by name. -/
theorem hasCommodity_iff (h : t.lookup (.account guid) = some account) :
    HasCommodity t guid commodity ↔ account.commodity = some commodity.name := by
  constructor
  · intro hcommodity
    obtain ⟨a, ha, hc⟩ := hcommodity
    rw [h] at ha
    cases ha
    exact hc
  · exact fun hc => ⟨account, h, hc⟩

/-- The account itself gets the new commodity. -/
theorem lookup_setCommodity_self (h : t.lookup (.account guid) = some account) :
    (setCommodity guid commodity t).lookup (.account guid)
      = some { account with commodity := some commodity.name } := by
  unfold setCommodity
  split
  · next hc =>
    rw [h, ← (hasCommodity_iff h).mp hc]
  · rw [lookup_reroundSplits_account, editAccount_of_lookup h]
    exact Finmap.lookup_insert t

/-- **The account after all its setters.** -/
theorem lookup_setAccount_self (spec : Shim.Account) (type : GNCAccountType)
    (commodity : Commodity) (parent : Guid) (h : t.lookup (.account guid) = some account) :
    (setAccount guid spec type commodity parent t).lookup (.account guid)
      = some (accountSet spec type commodity parent account) := by
  have hhead : (editAccount guid (setAccountHead spec type) t).lookup (.account guid)
      = some (setAccountHead spec type account) := by
    rw [editAccount_of_lookup h]
    exact Finmap.lookup_insert t
  rw [setAccount, editAccount_of_lookup (lookup_setCommodity_self hhead)]
  exact Finmap.lookup_insert _

/-- Setting an account with the commodity it has is a change of that account alone. -/
theorem setAccount_of_commodity (h : t.lookup (.account guid) = some account)
    (hc : account.commodity = some commodity.name) :
    setAccount guid spec type commodity parent t
      = t.insert (.account guid) (accountSet spec type commodity parent account) := by
  have hhead : (editAccount guid (setAccountHead spec type) t).lookup (.account guid)
      = some (setAccountHead spec type account) := by
    rw [editAccount_of_lookup h]
    exact Finmap.lookup_insert t
  have hhas : HasCommodity (editAccount guid (setAccountHead spec type) t) guid commodity :=
    (hasCommodity_iff hhead).mpr hc
  rw [setAccount, setCommodity, if_pos hhas, editAccount_of_lookup hhead, editAccount_of_lookup h,
    accountSet]
  refine Finmap.ext_lookup fun k => ?_
  by_cases hk : k = .account guid
  · subst hk
    have hset : setAccountHead spec type account
        = { setAccountHead spec type account with commodity := some commodity.name } := by
      rw [← hc]
      rfl
    rw [Finmap.lookup_insert, Finmap.lookup_insert, ← hset]
  · rw [Finmap.lookup_insert_of_ne _ hk, Finmap.lookup_insert_of_ne _ hk,
      Finmap.lookup_insert_of_ne _ hk]

/-- Setting an account changes the others in nothing that an edit's end looks at. -/
theorem lookup_setAccount_ne {ref : EntityRef} {e : Entity ref} (hne : ref ≠ .account guid)
    (h : (setAccount guid spec type commodity parent t).lookup ref = some e) :
    ∃ e₀, t.lookup ref = some e₀ ∧ (Entity.AtRest ref e₀ → Entity.AtRest ref e) := by
  rw [setAccount, lookup_editAccount_ne _ hne] at h
  unfold setCommodity at h
  split at h
  · rw [lookup_editAccount_ne _ hne] at h
    exact ⟨e, h, id⟩
  · cases ref with
    | account g =>
      rw [lookup_reroundSplits_account, lookup_editAccount_ne _ hne, lookup_editAccount_ne _ hne] at h
      exact ⟨e, h, id⟩
    | price g =>
      rw [lookup_reroundSplits_price, lookup_editAccount_ne _ hne, lookup_editAccount_ne _ hne] at h
      exact ⟨e, h, id⟩
    | transaction g =>
      rw [lookup_reroundSplits_transaction, lookup_editAccount_ne _ hne,
        lookup_editAccount_ne _ hne, Option.map_eq_some_iff] at h
      obtain ⟨e₀, h₀, rfl⟩ := h
      refine ⟨e₀, h₀, fun hrest => ⟨hrest.live, fun split hs => ?_⟩⟩
      obtain ⟨split₀, hs₀, rfl⟩ := List.mem_map.mp hs
      split
      · exact ⟨(hrest.splits split₀ hs₀).live, (hrest.splits split₀ hs₀).flag⟩
      · exact hrest.splits split₀ hs₀

/-- Setting an account is not seen in another account. -/
theorem lookup_setAccount_account {g : Guid} (hne : g ≠ guid) :
    (setAccount guid spec type commodity parent t).lookup (.account g) = t.lookup (.account g) := by
  have href : EntityRef.account g ≠ .account guid := fun heq => hne (EntityRef.account.inj heq)
  rw [setAccount, lookup_editAccount_ne _ href]
  unfold setCommodity
  split
  · rw [lookup_editAccount_ne _ href]
  · rw [lookup_reroundSplits_account, lookup_editAccount_ne _ href, lookup_editAccount_ne _ href]

/-- Setting an account leaves a transaction as it is, or rounds amounts in it. -/
theorem lookup_setAccount_reround {g : Guid} {tx : Transaction}
    (h : (setAccount guid spec type commodity parent t).lookup (.transaction g) = some tx) :
    ∃ tx₀ : Transaction, t.lookup (.transaction g) = some tx₀ ∧
      (tx = tx₀ ∨ tx = tx₀.reround guid commodity.fraction) := by
  have href : EntityRef.transaction g ≠ .account guid := fun heq => by cases heq
  rw [setAccount, lookup_editAccount_ne _ href] at h
  unfold setCommodity at h
  split at h
  · rw [lookup_editAccount_ne _ href] at h
    exact ⟨tx, h, Or.inl rfl⟩
  · rw [lookup_reroundSplits_transaction, lookup_editAccount_ne _ href,
      lookup_editAccount_ne _ href, Option.map_eq_some_iff] at h
    obtain ⟨tx₀, h₀, rfl⟩ := h
    exact ⟨tx₀, h₀, Or.inr rfl⟩

/-- Setting an account moves no split to another account. -/
theorem lookup_setAccount_transaction {g : Guid} {tx : Transaction}
    (h : (setAccount guid spec type commodity parent t).lookup (.transaction g) = some tx) :
    ∃ tx₀ : Transaction, t.lookup (.transaction g) = some tx₀ ∧
      tx.splits.map Split.account = tx₀.splits.map Split.account := by
  obtain ⟨tx₀, h₀, rfl | rfl⟩ := lookup_setAccount_reround h
  · exact ⟨tx, h₀, rfl⟩
  · refine ⟨tx₀, h₀, ?_⟩
    rw [Transaction.reround, List.map_map]
    refine List.map_congr_left fun split _ => ?_
    simp only [Function.comp_apply]
    split <;> rfl

/-- The transactions that have a split in the account. -/
theorem mem_splitTransactions {g : Guid} :
    EntityRef.transaction g ∈ splitTransactions t guid ↔
      ∃ tx : Transaction, t.lookup (.transaction g) = some tx ∧
        ∃ split ∈ tx.splits, split.account = guid := by
  simp only [splitTransactions, Multiset.mem_toFinset, Multiset.mem_map, Multiset.mem_filter,
    Prod.exists, EntityRef.transaction.injEq]
  constructor
  · rintro ⟨g', tx, ⟨hmem, hsplit⟩, rfl⟩
    exact ⟨tx, mem_transactionsIn.mp hmem, hsplit⟩
  · rintro ⟨tx, htx, hsplit⟩
    exact ⟨g, tx, ⟨mem_transactionsIn.mpr htx, hsplit⟩, rfl⟩

/-- A transaction without a split in the account is not rounded. -/
theorem lookup_reroundSplits_of_not_mem {ref : EntityRef} (fraction : Int64)
    (h : ref ∉ splitTransactions t guid) :
    (reroundSplits guid fraction t).lookup ref = t.lookup ref := by
  cases ref with
  | account g => exact lookup_reroundSplits_account guid fraction
  | price g => exact lookup_reroundSplits_price guid fraction
  | transaction g =>
    rw [lookup_reroundSplits_transaction]
    cases htx : (t.lookup (.transaction g) : Option Transaction) with
    | none => rfl
    | some tx =>
      have hsplits : ∀ split ∈ tx.splits, split.account ≠ guid := fun split hs heq =>
        h (mem_splitTransactions.mpr ⟨tx, htx, split, hs, heq⟩)
      refine congrArg some ?_
      rw [Transaction.reround]
      have hmap : tx.splits.map (fun split => if split.account = guid then
          { split with amount := storeRounded fraction split.amount split.amount } else split)
            = tx.splits.map id := by
        refine List.map_congr_left fun split hs => ?_
        rw [if_neg (hsplits split hs)]
        rfl
      rw [hmap, List.map_id]

/-- **Setting an account touches what it says**: the account, and the transactions it draws
into its edit. -/
theorem lookup_setAccount_of_not_mem {ref : EntityRef}
    (h : ref ∉ insert (.account guid)
      (setCommodityJoins guid commodity (editAccount guid (setAccountHead spec type) t))) :
    (setAccount guid spec type commodity parent t).lookup ref = t.lookup ref := by
  rw [Finset.mem_insert, not_or] at h
  obtain ⟨hne, hjoins⟩ := h
  rw [setAccount, lookup_editAccount_ne _ hne]
  unfold setCommodity
  unfold setCommodityJoins at hjoins
  split
  · exact lookup_editAccount_ne _ hne
  · next hcommodity =>
    rw [if_neg hcommodity] at hjoins
    -- The rounding looks at the table after the account's commodity is replaced.
    have hjoins' : ref ∉ splitTransactions (editAccount guid
        ({ · with commodity := some commodity.name })
        (editAccount guid (setAccountHead spec type) t)) guid := by
      cases ref with
      | account g => simp [splitTransactions]
      | price g => simp [splitTransactions]
      | transaction g =>
        rw [mem_splitTransactions] at hjoins ⊢
        rwa [lookup_editAccount_ne _ hne]
    rw [lookup_reroundSplits_of_not_mem _ hjoins', lookup_editAccount_ne _ hne,
      lookup_editAccount_ne _ hne]

end SetAccount

/-! ### Edits keep a book at rest

By the kind of the edit: what it inserts is at rest, what it marks is removed when it ends, and
the rest is as it was. -/

/-- Inserting one entity at rest keeps a table at rest. -/
theorem AtRest.insert {t : Finmap Entity} (h : AtRest t) (ref : EntityRef) {e : Entity ref}
    (he : Entity.AtRest ref e) : AtRest (t.insert ref e) := Finmap.All.insert h he

/-- Removing an object leaves the others at rest. -/
theorem AtRest.erase {t : Finmap Entity} (h : AtRest t) (ref : EntityRef) :
    AtRest (t.erase ref) := Finmap.All.erase h

/-- So does removing several. -/
theorem AtRest.overlay_empty {t : Finmap Entity} (h : AtRest t) (refs : Finset EntityRef) :
    AtRest (Finmap.overlay refs ∅ t) := Finmap.All.empty.overlay h refs

/-- A new account is not marked. -/
theorem blank_account_atRest (guid : Guid) : Entity.AtRest (.account guid) Account.blank := rfl

/-- A new transaction has no splits yet. -/
theorem blank_transaction_atRest (guid : Guid) :
    Entity.AtRest (.transaction guid) Transaction.blank :=
  ⟨rfl, fun split hs => by cases hs⟩

/-- After the setters of an account. -/
theorem settle_setAccount_atRest {t : Finmap Entity} (h : AtRest t) (guid : Guid)
    (spec : Shim.Account) (type : GNCAccountType) (commodity : Commodity) (parent : Guid) :
    AtRest (settle (.account guid) (setAccount guid spec type commodity parent t)) := by
  refine AtRest.settle (fun _ _ => trivial) fun ref' e hne he => ?_
  obtain ⟨e₀, he₀, hkeep⟩ := lookup_setAccount_ne hne he
  exact hkeep (h ref' e₀ he₀)

/-- After any other change of an account. -/
theorem settle_editAccount_atRest {t : Finmap Entity} (h : AtRest t) (guid : Guid)
    (f : Account → Account) : AtRest (settle (.account guid) (editAccount guid f t)) := by
  refine AtRest.settle (fun _ _ => trivial) fun ref' e hne he => ?_
  rw [lookup_editAccount_ne f hne] at he
  exact h ref' e he

/-- After a change of a transaction that keeps the flags of its splits. -/
theorem settle_editTransaction_atRest {t : Finmap Entity} (h : AtRest t) (guid : Guid)
    {f : Transaction → Transaction} (hf : ∀ transaction : Transaction, transaction.Flagged →
      (f transaction).Flagged) :
    AtRest (settle (.transaction guid) (editTransaction guid f t)) := by
  refine AtRest.settle (fun e he => ?_) fun ref' e hne he => ?_
  · cases ht : (t.lookup (.transaction guid) : Option Transaction) with
    | none =>
      simp only [editTransaction, ht] at he
      cases he
    | some transaction =>
      rw [editTransaction_of_lookup ht, Finmap.lookup_insert] at he
      cases he
      exact hf transaction fun split hs => ((h _ _ ht).splits split hs).flag
  · rw [lookup_editTransaction_ne f hne] at he
    exact h ref' e he

variable [Engine]

/-- After a price was added, and another one perhaps removed. -/
theorem gncPricedbAddPrice_atRest {t : Finmap Entity} (h : AtRest t) (guid : Guid) :
    AtRest (gncPricedbAddPrice guid t) := by
  unfold gncPricedbAddPrice
  cases (t.lookup (.price guid) : Option Price) with
  | none => exact h
  | some price =>
    dsimp only
    split
    · exact h.erase _
    · exact (h.overlay_empty _).insert (.price guid) trivial

/-- **Every planned edit keeps the book at rest.** -/
theorem plan_atRest {m : Mutation} {fate : Fate} {book : Book} {edit : Edit m.Response}
    (h : m.plan fate book = .ok edit) (hrest : AtRest book.entities) :
    AtRest (edit.after book).entities := by
  show AtRest (edit.result book.entities)
  -- What each RPC writes was checked or made from what was checked.
  cases m with
  | createAccount request =>
    obtain ⟨parent, type, commodity, -, -, -, rfl⟩ := plan_createAccount_ok h
    rw [createAccountEdit, Edit.result_inPlace]
    exact settle_setAccount_atRest (hrest.insert _ (blank_account_atRest _)) _ _ _ _ _
  | updateAccount request =>
    obtain ⟨account, type, commodity, parent, -, -, -, -, -, -, rfl⟩ := plan_updateAccount_ok h
    rw [updateAccountEdit, Edit.result_inPlace]
    exact settle_setAccount_atRest hrest _ _ _ _ _
  | deleteAccount request =>
    obtain ⟨account, -, -, -, rfl⟩ := plan_deleteAccount_ok h
    rw [deleteAccountEdit, Edit.result_destroy]
    exact settle_editAccount_atRest hrest _ _
  | setReconcileInfo request =>
    obtain ⟨account, lastDate, date, -, -, -, rfl⟩ := plan_setReconcileInfo_ok h
    rw [setReconcileInfoEdit, Edit.result_inPlace]
    exact settle_editAccount_atRest hrest _ _
  | postTransaction request =>
    obtain ⟨plan, hplan, rfl⟩ := plan_postTransaction_ok h
    rw [postTransactionEdit, Edit.result_inPlace]
    exact settle_editTransaction_atRest (hrest.insert _ (blank_transaction_atRest _)) _
      fun t ht => applyPlan_flagged (planTransaction_settable hplan) ht
  | updateTransaction request =>
    obtain ⟨transaction, plan, -, hplan, rfl⟩ := plan_updateTransaction_ok h
    rw [updateTransactionEdit, Edit.result_inPlace]
    exact settle_editTransaction_atRest hrest _
      fun t ht => applyPlan_flagged (planTransaction_settable hplan) ht
  | deleteTransaction request =>
    obtain ⟨transaction, -, rfl⟩ := plan_deleteTransaction_ok h
    rw [deleteTransactionEdit, Edit.result_destroy]
    refine settle_editTransaction_atRest hrest _ fun t ht => ?_
    unfold Transaction.destroy
    split
    · exact ht
    · exact ht
  | addPrice request =>
    obtain ⟨_, _, _, _, _, -, -, -, -, -, -, rfl⟩ := plan_addPrice_ok h
    rw [Edit.result_price]
    exact gncPricedbAddPrice_atRest (hrest.insert (.price _) trivial) _

/-! ### The transaction an update commits

The header is the one planned, and the splits are those of the plan: the ones it names, changed,
the ones it adds, and none of the others. -/

section Committed

variable {newGuid : ℕ → Guid} {b : Book} {plan : TransactionPlan} {g : Guid} {t : Transaction}

/-- The transaction as the commit leaves it: planned, without the splits it destroys. -/
def TransactionPlan.committed (newGuid : ℕ → Guid) (b : Book) (plan : TransactionPlan)
    (t : Transaction) : Transaction :=
  { applyPlan newGuid b plan t with splits := (applyPlan newGuid b plan t).liveSplits }

/-- Its header. -/
theorem committed_header (plan : TransactionPlan) (t : Transaction) :
    SameHeader (plan.setHeader t) (plan.committed newGuid b t) :=
  (applyPlan_header plan t).trans ⟨rfl, rfl, rfl, rfl, rfl, rfl, rfl⟩

/-- No split of it is destroyed. -/
theorem committed_splits_live : ∀ s ∈ (plan.committed newGuid b t).splits, s.destroying = false := by
  intro s hs
  simpa using (List.mem_filter.mp hs).2

/-- So all of its splits are shown. -/
theorem committed_liveSplits :
    (plan.committed newGuid b t).liveSplits = (plan.committed newGuid b t).splits :=
  List.filter_eq_self.mpr fun s hs => by rw [committed_splits_live s hs]; rfl

/-- It is at rest. -/
theorem committed_atRest (hplan : ∀ p ∈ plan.splits, SettableFlag p.reconcile) (ht : t.AtRest) :
    (plan.committed newGuid b t).AtRest where
  live := (committed_header plan t).destroying.trans ht.live
  splits s hs := by
    have hflagged : (applyPlan newGuid b plan t).Flagged :=
      applyPlan_flagged hplan fun s hs => (ht.splits s hs).flag
    exact ⟨committed_splits_live s hs, hflagged s (List.mem_filter.mp hs).1⟩

/-- The response skips what the commit drops, so it shows the committed transaction. -/
theorem toProto_committed :
    transactionToProto g (plan.committed newGuid b t)
      = transactionToProto g (applyPlan newGuid b plan t) := by
  rw [transactionToProto, committed_liveSplits]
  rfl

/-- **What a post commits**: the planned transaction, and no other entity is touched. -/
theorem after_postTransactionEdit :
    (postTransactionEdit newGuid b plan).after b = b.setEntities
      (b.entities.insert (.transaction (newGuid 0)) (plan.committed newGuid b .blank)) := by
  have hsettle : Entity.settle (.transaction (newGuid 0)) (applyPlan newGuid b plan .blank)
      = some (plan.committed newGuid b .blank) := by
    have hnot : ¬(applyPlan newGuid b plan .blank).destroying = true := by
      rw [(applyPlan_header plan Transaction.blank).destroying]
      exact Bool.false_ne_true
    simp only [Entity.settle, if_neg hnot]
    rfl
  rw [postTransactionEdit, Edit.after_inPlace, editTransaction_of_lookup (Finmap.lookup_insert _),
    Finmap.insert_insert, settle_of_lookup (Finmap.lookup_insert _), hsettle]
  refine congrArg b.setEntities (Finmap.ext_lookup fun k => ?_)
  by_cases hk : k = .transaction (newGuid 0)
  · subst hk
    rw [Finmap.lookup_assign_self, Finmap.lookup_insert]
  · rw [Finmap.lookup_assign_ne hk, Finmap.lookup_insert_of_ne _ hk, Finmap.lookup_insert_of_ne _ hk]

variable (hlookup : b.transaction g = some t)
include hlookup

/-- As is what it is told of an update. -/
theorem response_updateTransactionEdit :
    (updateTransactionEdit newGuid g b plan).response
      = transactionToProto g (plan.committed newGuid b t) := by
  rw [toProto_committed]
  show transactionResponse g (editTransaction g _ b.entities) = _
  rw [transactionResponse, editTransaction_of_lookup hlookup, Finmap.lookup_insert]
  rfl

/-- **What an update commits**: the planned transaction in place of the old one, and no
other entity is touched. -/
theorem after_updateTransactionEdit (hlive : t.destroying = false) :
    (updateTransactionEdit newGuid g b plan).after b
      = b.setEntities (b.entities.insert (.transaction g) (plan.committed newGuid b t)) := by
  have hsettle : Entity.settle (.transaction g) (applyPlan newGuid b plan t)
      = some (plan.committed newGuid b t) := by
    have hnot : ¬(applyPlan newGuid b plan t).destroying = true := by
      rw [(applyPlan_header plan t).destroying]
      exact ne_true_of_eq_false hlive
    simp only [Entity.settle, if_neg hnot]
    rfl
  rw [updateTransactionEdit, Edit.after_inPlace, editTransaction_of_lookup hlookup,
    settle_of_lookup (Finmap.lookup_insert _), hsettle]
  refine congrArg b.setEntities (Finmap.ext_lookup fun k => ?_)
  by_cases hk : k = .transaction g
  · subst hk
    rw [Finmap.lookup_assign_self, Finmap.lookup_insert]
  · rw [Finmap.lookup_assign_ne hk, Finmap.lookup_insert_of_ne _ hk, Finmap.lookup_insert_of_ne _ hk]

end Committed

end Daichod
