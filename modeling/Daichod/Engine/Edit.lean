import Daichod.World

/-!
# Daichod.Engine.Edit

The engine calls the handlers make on live objects. Setters on one object are pure
functions on its value (`Account.setName`, `Split.setValue`, …), run by `editAccount` and
`editTransaction`. What they do to the in-memory book is an `EditStore.write`, and the
edits around them are the store's scopes.

`finishEdit` is where an edit ends: on the outermost level the engine first drops what was
marked for destruction (`settle`), then either flushes or rolls back, as the fate says. A
commit nested in another edit of the same object only decrements the edit level. What is
flushed is what was edited, nothing more: the engine's own scrubbing is outside the model.
-/

namespace Daichod

/-! ### Ending an edit

The engine counts how often an object is being edited. Only the outermost `CommitEdit` does
anything: it removes what was marked, and hands the rest to the backend. -/

/-- What the outermost commit leaves of an object: nothing if it was destroyed, and no
split that was. -/
def Entity.settle : (ref : EntityRef) → Entity ref → Option (Entity ref)
  | .account _, account => if account.destroying then none else some account
  | .transaction _, transaction =>
    if transaction.destroying then none
    else some { transaction with splits := transaction.liveSplits }
  | .price _, price => some price

/-- Drop what is marked for destruction in one object. -/
def settle (ref : EntityRef) (table : Finmap Entity) : Finmap Entity :=
  table.assign ref ((table.lookup ref).bind (Entity.settle ref))

/-- Is the object's edit level above zero? -/
def Editing (ref : EntityRef) (store : EditStore Entity) : Prop :=
  ∃ scope ∈ store.scopes, scope.key = ref

instance (ref : EntityRef) (store : EditStore Entity) : Decidable (Editing ref store) :=
  inferInstanceAs (Decidable (∃ scope ∈ store.scopes, scope.key = ref))

/-- `qof_commit_edit`: decrement the edit level, and on level zero drop what is marked. -/
def decrementEditlevel (ref : EntityRef) (store : EditStore Entity) : EditStore Entity :=
  let closed := store.close ref
  if Editing ref closed then closed else closed.write (settle ref)

/-- Run the engine's last step of a mutation: `commit` where the engine accepts it,
`rollback` and an error on the session where it declines. -/
def finalStep [Wire] (fate : Fate) (commit rollback : EditStore Entity → EditStore Entity) :
    Exec Unit :=
  match fate.finalStep with
  | .commits => onStore commit
  | .declines error => modify fun w =>
      { w.onStore rollback with session := w.session.map ({ · with error := some error }) }
  | .throwsBefore what => throw (.other what)
  | .throwsAfter what => do onStore commit; throw (.other what)

/-- End the innermost edit of an object. -/
def finishEdit [Wire] (fate : Fate) (ref : EntityRef) : Exec Unit :=
  finalStep fate (fun store => (decrementEditlevel ref store).flush)
    (fun store => (decrementEditlevel ref store).revert)

/-! ### Accounts

The setters of an account, and what the commodity setter does besides: it rounds the splits of the
account to the new fraction. -/

/-- What `xaccMallocAccount` allocates. -/
def Account.blank : Account :=
  { name := "", type := .bank, commodity := none, code := "", description := "",
    placeholder := false, hidden := false, parent := none, reconcileLastDate := none,
    destroying := false }

/-- `xaccAccountSetName`. -/
def Account.setName (name : String) (account : Account) : Account :=
  { account with name := cStr name }

/-- `xaccAccountSetType`. -/
def Account.setType (type : GNCAccountType) (account : Account) : Account :=
  { account with type }

/-- `xaccAccountSetCode`. -/
def Account.setCode (code : String) (account : Account) : Account :=
  { account with code := cStr code }

/-- `xaccAccountSetDescription`. -/
def Account.setDescription (description : String) (account : Account) : Account :=
  { account with description := cStr description }

/-- `xaccAccountSetPlaceholder`. -/
def Account.setPlaceholder (placeholder : Bool) (account : Account) : Account :=
  { account with placeholder }

/-- `xaccAccountSetHidden`. -/
def Account.setHidden (hidden : Bool) (account : Account) : Account := { account with hidden }

/-- `gnc_account_append_child`, on the child. -/
def Account.setParent (parent : Guid) (account : Account) : Account :=
  { account with parent := some parent }

/-- `xaccAccountSetReconcileLastDate`. -/
def Account.setReconcileLastDate (date : GDate) (account : Account) : Account :=
  { account with reconcileLastDate := some date }

/-- Change an account in place. -/
def editAccount (guid : Guid) (f : Account → Account) (table : Finmap Entity) : Finmap Entity :=
  match (table.lookup (.account guid) : Option Account) with
  | some account => table.insert (.account guid) (f account)
  | none => table

/-- Round the amounts of an account's splits in a transaction to a new fraction. -/
def Transaction.reround (account : Guid) (fraction : Int64) (transaction : Transaction) :
    Transaction :=
  { transaction with
    splits := transaction.splits.map fun split =>
      if split.account = account then
        { split with amount := storeRounded fraction split.amount split.amount }
      else split }

/-- Round the amounts of an account's splits, wherever they are, to a new fraction. -/
def reroundSplits (account : Guid) (fraction : Int64) : Finmap Entity → Finmap Entity :=
  Finmap.mapVals fun
    | .transaction _, transaction => transaction.reround account fraction
    | .account _, other => other
    | .price _, other => other

/-- The transactions with a split in an account. -/
def splitTransactions (table : Finmap Entity) (account : Guid) : Finset EntityRef :=
  (((transactionsIn table).filter fun t => ∃ split ∈ t.2.splits, split.account = account).map
    fun t => EntityRef.transaction t.1).toFinset

/-- Is this the commodity the account has already? -/
def HasCommodity (table : Finmap Entity) (guid : Guid) (commodity : Commodity) : Prop :=
  ∃ account : Account, table.lookup (.account guid) = some account ∧
    account.commodity = some commodity.name

instance (table : Finmap Entity) (guid : Guid) (commodity : Commodity) :
    Decidable (HasCommodity table guid commodity) :=
  match h : (table.lookup (.account guid) : Option Account) with
  | none => isFalse fun ⟨_, ha, _⟩ => by rw [h] at ha; cases ha
  | some account =>
    decidable_of_iff (account.commodity = some commodity.name)
      ⟨fun hc => ⟨account, h, hc⟩, fun ⟨_, ha, hc⟩ => by rw [h] at ha; cases ha; exact hc⟩

/-- What setting an account's commodity does to the entities: nothing when it is the
account's already, else it is replaced and the account's splits are rounded to its
fraction. -/
def setCommodity (guid : Guid) (commodity : Commodity) (table : Finmap Entity) :
    Finmap Entity :=
  if HasCommodity table guid commodity then table
  else
    reroundSplits guid commodity.fraction
      (editAccount guid ({ · with commodity := some commodity.name }) table)

/-- The transactions that setting an account's commodity changes. -/
def setCommodityJoins (guid : Guid) (commodity : Commodity) (table : Finmap Entity) :
    Finset EntityRef :=
  if HasCommodity table guid commodity then ∅ else splitTransactions table guid

/-- `xaccAccountSetCommodity`. The transactions it rounds go to the database with the
account. -/
def xaccAccountSetCommodity (guid : Guid) (commodity : Commodity) (store : EditStore Entity) :
    EditStore Entity :=
  (store.join (setCommodityJoins guid commodity store.working)).write (setCommodity guid commodity)

/-! ### Transactions

The setters of a transaction and of its splits. A value is rounded to the fraction of the
currency, an amount to that of the account's commodity. -/

/-- What `xaccMallocTransaction` allocates. -/
def Transaction.blank : Transaction :=
  { currency := none, postDate := none, enterTime := 0, num := "", description := "",
    splits := [], readOnly := false, destroying := false }

/-- What `xaccMallocSplit` allocates, in the account it is put into at once. -/
def Split.blank (guid account : Guid) : Split :=
  { guid, account, value := gncNumericZero, amount := gncNumericZero, memo := "", action := "",
    reconcile := nrec, destroying := false }

/-- Change a transaction in place. -/
def editTransaction (guid : Guid) (f : Transaction → Transaction) (table : Finmap Entity) :
    Finmap Entity :=
  match (table.lookup (.transaction guid) : Option Transaction) with
  | some transaction => table.insert (.transaction guid) (f transaction)
  | none => table

/-- `xaccTransSetCurrency`: a change of currency re-rates the splits. -/
def Transaction.setCurrency [Engine] (currency : Commodity) (transaction : Transaction) :
    Transaction :=
  { transaction with
    currency := some currency.name
    splits :=
      if transaction.currency = none ∨ transaction.currency = some currency.name then
        transaction.splits
      else
        transaction.splits.map fun split =>
          { split with value := Engine.rerate transaction currency.name split } }

/-- `xaccTransSetDatePostedGDate`. -/
def Transaction.setDatePostedGDate (date : GDate) (transaction : Transaction) : Transaction :=
  { transaction with postDate := some date }

/-- `xaccTransSetDateEnteredSecs`. -/
def Transaction.setDateEnteredSecs (secs : Int64) (transaction : Transaction) : Transaction :=
  { transaction with enterTime := secs }

/-- `xaccTransSetNum`. -/
def Transaction.setNum (num : String) (transaction : Transaction) : Transaction :=
  { transaction with num := cStr num }

/-- `xaccTransSetDescription`. -/
def Transaction.setDescription (description : String) (transaction : Transaction) :
    Transaction :=
  { transaction with description := cStr description }

/-- `xaccTransDestroy`: a read-only transaction is left alone. -/
def Transaction.destroy (transaction : Transaction) : Transaction :=
  if transaction.readOnly then transaction else { transaction with destroying := true }

/-- Change one split of a transaction in place. -/
def Transaction.editSplit (guid : Guid) (f : Split → Split) (transaction : Transaction) :
    Transaction :=
  { transaction with
    splits := transaction.splits.map fun split => if split.guid = guid then f split else split }

/-- `xaccSplitDestroy`, refused on a read-only transaction. -/
def Transaction.destroySplit (guid : Guid) (transaction : Transaction) : Transaction :=
  if transaction.readOnly then transaction
  else transaction.editSplit guid ({ · with destroying := true })

/-- `xaccSplitSetParent`, on a split just allocated. -/
def Transaction.addSplit (split : Split) (transaction : Transaction) : Transaction :=
  { transaction with splits := transaction.splits ++ [split] }

/-- The denominator `xaccSplitSetValue` rounds to. -/
def Transaction.valueFraction (b : Book) (transaction : Transaction) : Option Int64 :=
  transaction.currency.bind b.fraction

/-- The denominator `xaccSplitSetAmount` rounds to. -/
def amountFraction (b : Book) (account : Guid) : Option Int64 :=
  (b.account account).bind fun a => a.commodity.bind b.fraction

/-- Store an amount under a setter's denominator; where there is none, it is kept as it is. -/
def storeAmount (fraction : Option Int64) (old v : GncNumeric) : GncNumeric :=
  match fraction with
  | some f => storeRounded f old v
  | none => v

/-- What is stored has a positive denominator if both the old and the new value have one. -/
theorem storeAmount_denom_pos {fraction : Option Int64} {old v : GncNumeric}
    (hfraction : ∀ f ∈ fraction, 0 < f.toInt) (hold : 0 < old.denom.toInt)
    (hv : 0 < v.denom.toInt) : 0 < (storeAmount fraction old v).denom.toInt := by
  cases fraction with
  | none => exact hv
  | some f => exact storeRounded_denom_pos (hfraction f rfl) hold

/-- `xaccSplitSetAccount`. -/
def Split.setAccount (account : Guid) (split : Split) : Split := { split with account }

/-- `xaccSplitSetValue`. -/
def Split.setValue (fraction : Option Int64) (value : GncNumeric) (split : Split) : Split :=
  { split with value := storeAmount fraction split.value value }

/-- `xaccSplitSetAmount`. -/
def Split.setAmount (fraction : Option Int64) (amount : GncNumeric) (split : Split) : Split :=
  { split with amount := storeAmount fraction split.amount amount }

/-- `xaccSplitSetMemo`. -/
def Split.setMemo (memo : String) (split : Split) : Split := { split with memo := cStr memo }

/-- `xaccSplitSetAction`. -/
def Split.setAction (action : String) (split : Split) : Split :=
  { split with action := cStr action }

/-- `xaccSplitSetReconcile`. -/
def Split.setReconcile (flag : Char) (split : Split) : Split := { split with reconcile := flag }

/-! ### Prices -/

/-- The listed prices of one commodity pair on one day. -/
def sameDayPrices [Engine] (table : Finmap Entity) (price : Price) : Multiset (Guid × Price) :=
  (pricesIn table).filter fun p =>
    p.2.inDb = true ∧ p.2.commodity = price.commodity ∧ p.2.currency = price.currency ∧
      Engine.time64ToGdate p.2.time = Engine.time64ToGdate price.time

/-- Does a price of the same day take precedence? -/
def Outranked [Engine] (table : Finmap Entity) (price : Price) : Prop :=
  ∃ p ∈ sameDayPrices table price, Engine.sourceRank p.2.source < Engine.sourceRank price.source

instance [Engine] (table : Finmap Entity) (price : Price) : Decidable (Outranked table price) :=
  Multiset.decidableExistsMultiset

/-- `gnc_pricedb_add_price` with the `gnc_price_unref` after it: a price outranked on its
day is dropped, any other takes the place of the day's price. -/
def gncPricedbAddPrice [Engine] (guid : Guid) (table : Finmap Entity) : Finmap Entity :=
  match (table.lookup (.price guid) : Option Price) with
  | none => table
  | some price =>
    if Outranked table price then table.erase (.price guid)
    else
      let replaced := (sameDayPrices table price).map fun p => EntityRef.price p.1
      (Finmap.overlay replaced.toFinset ∅ table).insert (.price guid) { price with inDb := true }

/-! ### Reading a changed table

What a change leaves under its own key and under the others. -/

section Lookups

variable {t : Finmap Entity} {guid : Guid}

/-- An account that is there is replaced. -/
theorem editAccount_of_lookup {f : Account → Account} {account : Account}
    (h : t.lookup (.account guid) = some account) :
    editAccount guid f t = t.insert (.account guid) (f account) := by
  simp only [editAccount, h]

/-- It is read as it was changed. -/
theorem lookup_editAccount_self {f : Account → Account} {account : Account}
    (h : t.lookup (.account guid) = some account) :
    (editAccount guid f t).lookup (.account guid) = some (f account) := by
  rw [editAccount_of_lookup h]
  exact Finmap.lookup_insert t

/-- Nothing else is touched. -/
theorem lookup_editAccount_ne (f : Account → Account) {ref : EntityRef}
    (h : ref ≠ .account guid) : (editAccount guid f t).lookup ref = t.lookup ref := by
  unfold editAccount
  split
  · exact Finmap.lookup_insert_of_ne t h
  · rfl

/-- A transaction that is there is replaced. -/
theorem editTransaction_of_lookup {f : Transaction → Transaction} {transaction : Transaction}
    (h : t.lookup (.transaction guid) = some transaction) :
    editTransaction guid f t = t.insert (.transaction guid) (f transaction) := by
  simp only [editTransaction, h]

/-- Nothing else is touched. -/
theorem lookup_editTransaction_ne (f : Transaction → Transaction) {ref : EntityRef}
    (h : ref ≠ .transaction guid) : (editTransaction guid f t).lookup ref = t.lookup ref := by
  unfold editTransaction
  split
  · exact Finmap.lookup_insert_of_ne t h
  · rfl

/-- Rounding splits anew leaves the accounts alone, -/
theorem lookup_reroundSplits_account (account : Guid) (fraction : Int64) :
    (reroundSplits account fraction t).lookup (.account guid) = t.lookup (.account guid) := by
  rw [reroundSplits, Finmap.lookup_mapVals]
  exact Option.map_id'

/-- and the prices, -/
theorem lookup_reroundSplits_price (account : Guid) (fraction : Int64) :
    (reroundSplits account fraction t).lookup (.price guid) = t.lookup (.price guid) := by
  rw [reroundSplits, Finmap.lookup_mapVals]
  exact Option.map_id'

/-- and changes every transaction in its splits only. -/
theorem lookup_reroundSplits_transaction (account : Guid) (fraction : Int64) :
    (reroundSplits account fraction t).lookup (.transaction guid)
      = (t.lookup (.transaction guid) : Option Transaction).map
          (Transaction.reround account fraction) := by
  rw [reroundSplits, Finmap.lookup_mapVals]

/-- Adding a price touches prices only. -/
theorem lookup_gncPricedbAddPrice_ne [Engine] {ref : EntityRef} (h : ∀ g, ref ≠ .price g) :
    (gncPricedbAddPrice guid t).lookup ref = t.lookup ref := by
  unfold gncPricedbAddPrice
  cases (t.lookup (.price guid) : Option Price) with
  | none => rfl
  | some price =>
    dsimp only
    split
    · exact Finmap.lookup_erase_ne (h guid)
    · rw [Finmap.lookup_insert_of_ne _ (h guid), Finmap.lookup_overlay, if_neg]
      simp only [Multiset.mem_toFinset, Multiset.mem_map, not_exists, not_and]
      exact fun p _ heq => h p.1 heq.symm

/-- Settling looks at one object. -/
theorem settle_of_lookup {ref : EntityRef} {e : Entity ref} (h : t.lookup ref = some e) :
    settle ref t = t.assign ref (Entity.settle ref e) := by
  rw [settle, h]
  rfl

/-- The others are not touched. -/
theorem lookup_settle_ne {ref ref' : EntityRef} (h : ref' ≠ ref) :
    (settle ref t).lookup ref' = t.lookup ref' := Finmap.lookup_assign_ne h _ t

/-- It is gone if it was marked. -/
theorem lookup_settle_self (ref : EntityRef) :
    (settle ref t).lookup ref = (t.lookup ref).bind (Entity.settle ref) :=
  Finmap.lookup_assign_self _ _ t

end Lookups

/-! ### Books at rest

Between the requests no object is marked for destruction. So every split is live, and settling has
nothing to do. -/

/-- A split that is not queued for destruction, with a flag the engine sets. -/
structure Split.AtRest (split : Split) : Prop where
  live : split.destroying = false
  flag : SettableFlag split.reconcile

/-- A transaction outside any edit. -/
structure Transaction.AtRest (transaction : Transaction) : Prop where
  live : transaction.destroying = false
  splits : ∀ split ∈ transaction.splits, split.AtRest

/-- One entity outside any edit. -/
def Entity.AtRest : (ref : EntityRef) → Entity ref → Prop
  | .account _, account => account.destroying = false
  | .transaction _, transaction => Transaction.AtRest transaction
  | .price _, _ => True

/-- Nothing in the table is marked for destruction and every reconcile flag is one the engine
sets, as in every book that is loaded: the database keeps no marks, and the loader puts each
flag through `xaccSplitSetReconcile`, which takes no other. -/
def AtRest (t : Finmap Entity) : Prop := ∀ ref e, t.lookup ref = some e → Entity.AtRest ref e

/-- In whatever order its splits are loaded. -/
theorem Transaction.Relisted.atRest {t r : Transaction} (h : t.Relisted r) (ht : t.AtRest) :
    r.AtRest where
  live := h.header.destroying.trans ht.live
  splits s hs := ht.splits s (h.splits.mem_iff.mp hs)

/-- What is at rest in one order is at rest in the other. -/
theorem Book.Relisted.atRest {b b' : Book} (h : b.Relisted b') (hrest : AtRest b.entities) :
    AtRest b'.entities := by
  intro ref e he
  cases ref with
  | account g => exact hrest (.account g) e ((h.account g).symm.trans he)
  | price g => trivial
  | transaction g =>
    obtain ⟨t, ht, hlisted⟩ := h.symm.transaction he
    exact hlisted.symm.atRest (hrest (.transaction g) t ht)

/-- The flags an entity's splits carry are flags the engine sets. -/
def Entity.Flagged : (ref : EntityRef) → Entity ref → Prop
  | .transaction _, transaction => ∀ split ∈ transaction.splits, SettableFlag split.reconcile
  | _, _ => True

/-- All splits are shown. -/
theorem Transaction.AtRest.liveSplits_eq {transaction : Transaction} (h : transaction.AtRest) :
    transaction.liveSplits = transaction.splits := by
  refine List.filter_eq_self.mpr fun split hs => ?_
  simp [(h.splits split hs).live]

/-- An entity at rest is left alone by the end of an edit. -/
theorem Entity.settle_of_atRest (ref : EntityRef) {e : Entity ref} (h : Entity.AtRest ref e) :
    Entity.settle ref e = some e := by
  cases ref with
  | account _ =>
    have h : Account.destroying e = false := h
    simp [Entity.settle, h]
  | transaction _ =>
    have h : Transaction.AtRest e := h
    have hlive : ¬Transaction.destroying e = true := by simp [h.live]
    simp only [Entity.settle, if_neg hlive, h.liveSplits_eq]
  | price _ => rfl

/-- The end of an edit changes nothing where the entity is at rest. -/
theorem settle_eq_self {t : Finmap Entity} {ref : EntityRef}
    (h : ∀ e, t.lookup ref = some e → Entity.AtRest ref e) : settle ref t = t := by
  have hself : (t.lookup ref).bind (Entity.settle ref) = t.lookup ref := by
    cases he : t.lookup ref with
    | none => rfl
    | some e => exact Entity.settle_of_atRest ref (h e he)
  rw [settle, hself, Finmap.assign_lookup_self]

/-- The end of an edit changes nothing in a table at rest. -/
theorem AtRest.settle_eq {t : Finmap Entity} (h : AtRest t) (ref : EntityRef) :
    settle ref t = t :=
  settle_eq_self (h ref)

/-- The end of an edit leaves the entity at rest. -/
theorem Entity.settle_atRest {ref : EntityRef} {e e' : Entity ref} (hf : Entity.Flagged ref e)
    (h : Entity.settle ref e = some e') : Entity.AtRest ref e' := by
  cases ref with
  | account _ =>
    simp only [Entity.settle] at h
    split at h
    · cases h
    · next hd =>
      cases h
      simpa [Entity.AtRest] using hd
  | transaction _ =>
    simp only [Entity.settle] at h
    split at h
    · cases h
    · next hd =>
      cases h
      refine ⟨by simpa using hd, fun split hs => ?_⟩
      obtain ⟨hs, hlive⟩ := List.mem_filter.mp hs
      exact ⟨by simpa using hlive, hf split hs⟩
  | price _ => trivial

/-- An edit of one entity, ended, keeps the table at rest if it kept the others so. -/
theorem AtRest.settle {ref : EntityRef} {t : Finmap Entity}
    (hself : ∀ e, t.lookup ref = some e → Entity.Flagged ref e)
    (hrest : ∀ ref' e, ref' ≠ ref → t.lookup ref' = some e → Entity.AtRest ref' e) :
    AtRest (settle ref t) := by
  intro ref' e h
  by_cases hk : ref' = ref
  · subst hk
    rw [lookup_settle_self, Option.bind_eq_some_iff] at h
    obtain ⟨e₀, he₀, he⟩ := h
    exact Entity.settle_atRest (hself e₀ he₀) he
  · rw [lookup_settle_ne hk] at h
    exact hrest ref' e hk h

end Daichod
