import Daichod.Journal.Recovery
import Daichod.Rpc.Results

/-!
# Daichod.Journal.Verdict

How far `WasApplied` can be trusted. Recovery reads the fate of a mutation off the book it
finds, and when no other mutation ran in between that book is one of two: the book before
the mutation, or the book after it. `wasApplied_exact` says that on these two the verdict
is right, except where the mutation changes nothing, where both are one book and either
verdict is harmless.

## Proof shape

`Exact entry before after` is the statement for one entry and the two books that can be meant.
There is one lemma for each RPC (`exact_createAccount` and its siblings), in one of three ways.
What was created has a fresh GUID, so it is in the one book and not in the other. What was deleted
was in the one book and is not in the other. What was changed is compared as a message, and two
objects that are shown alike are alike, so an equal message on the book before means that nothing
was changed.
-/

namespace Daichod

variable [Wire] [Engine]

/-- The pending record a mutation leaves. -/
def Mutation.entry (m : Mutation) (response : m.Response) : Journal.PendingEntry :=
  { mutationId := m.mutationId, rpcName := m.rpcName, requestPayload := m.payload
    pendingResponse := m.codec.serialize response }

/-- The verdict on `entry` tells `before` and `after` apart as far as they differ. -/
structure Exact (entry : Journal.PendingEntry) (before after : Book) : Prop where
  applied : wasApplied after entry = some true ∨ after = before
  unapplied : wasApplied before entry = some true → after = before

/-! ### The branches of `WasApplied`

The comparison that each RPC name selects. -/

section Branches

variable (b : Book) {entry : Journal.PendingEntry}

/-- A new account is looked for under the GUID in its response. -/
theorem wasApplied_createAccount (h : entry.rpcName = "daicho.shim.v1.AccountService/CreateAccount") :
    wasApplied b entry = createdExists Wire.account
      (fun response => some (accountExists b response.guid)) entry := by
  unfold wasApplied
  rw [h]
  rfl

/-- A changed account is compared with its response. -/
theorem wasApplied_updateAccount (h : entry.rpcName = "daicho.shim.v1.AccountService/UpdateAccount") :
    wasApplied b entry = entityMatches Wire.account Shim.Account.guid b.account accountToProto
      entry := by
  unfold wasApplied
  rw [h]
  rfl

/-- A deleted account should not be there. -/
theorem wasApplied_deleteAccount (h : entry.rpcName = "daicho.shim.v1.AccountService/DeleteAccount") :
    wasApplied b entry = deletedGone Wire.deleteAccountRequest Shim.DeleteAccountRequest.guid
      (accountExists b) entry := by
  unfold wasApplied
  rw [h]
  rfl

/-- Reconcile information is compared with its response. -/
theorem wasApplied_setReconcileInfo
    (h : entry.rpcName = "daicho.shim.v1.AccountService/SetReconcileInfo") :
    wasApplied b entry = entityMatches Wire.reconcileInfo Shim.ReconcileInfo.accountGuid b.account
      (reconcileInfoToProto b) entry := by
  unfold wasApplied
  rw [h]
  rfl

/-- A new transaction is looked for under the GUID in its response. -/
theorem wasApplied_postTransaction
    (h : entry.rpcName = "daicho.shim.v1.TransactionService/PostTransaction") :
    wasApplied b entry = createdExists Wire.transaction
      (fun response => some (transactionExists b response.guid)) entry := by
  unfold wasApplied
  rw [h]
  rfl

/-- A changed transaction is compared with its response. -/
theorem wasApplied_updateTransaction
    (h : entry.rpcName = "daicho.shim.v1.TransactionService/UpdateTransaction") :
    wasApplied b entry = entityMatches Wire.transaction Shim.Transaction.guid b.transaction
      transactionToProto entry := by
  unfold wasApplied
  rw [h]
  rfl

/-- A deleted transaction should not be there. -/
theorem wasApplied_deleteTransaction
    (h : entry.rpcName = "daicho.shim.v1.TransactionService/DeleteTransaction") :
    wasApplied b entry = deletedGone Wire.deleteTransactionRequest
      Shim.DeleteTransactionRequest.guid (transactionExists b) entry := by
  unfold wasApplied
  rw [h]
  rfl

/-- A price is looked for under the GUID in its response. -/
theorem wasApplied_addPrice (h : entry.rpcName = "daicho.shim.v1.CommodityService/AddPrice") :
    wasApplied b entry = createdExists Wire.price (fun response =>
      (parseGuid response.guid).map fun parsed => (b.price parsed).isSome) entry := by
  unfold wasApplied
  rw [h]
  rfl

end Branches

/-! ### Reading the recorded message back

The entry of a call that got as far as recording its response holds that response and the request,
so that parsing gives them back. -/

section Records

variable {α β : Type} {codec : Codec Bytes α} {entry : Journal.PendingEntry} {response : α}

omit [Engine] in
/-- The check for something new, on its own response. -/
theorem createdExists_of_entry (present : α → Option Bool)
    (h : entry.pendingResponse = codec.serialize response) :
    createdExists codec present entry = present response := by
  rw [createdExists, h, codec.parse_serialize]

omit [Engine] in
/-- The check for something deleted, on its own request. -/
theorem deletedGone_of_entry {request : α} (guid : α → String) (found : String → Bool)
    (h : entry.requestPayload = codec.serialize request) :
    deletedGone codec guid found entry = some (!found (guid request)) := by
  rw [deletedGone, h, codec.parse_serialize]

omit [Wire] in
/-- A GUID the engine printed reads back. -/
@[simp] theorem parseGuid_guidToString (g : Guid) :
    parseGuid (Engine.guidToString g) = some g := by
  rw [parseGuid, Engine.cStr_guidToString, Engine.stringToGuid_guidToString]

/-- The verdict on an entity that is still there compares two messages. -/
theorem entityMatches_of_found {guid : α → String} {find : Guid → Option β}
    {toProto : Guid → β → α} {g : Guid} {e : β}
    (h : entry.pendingResponse = codec.serialize response)
    (hg : guid response = Engine.guidToString g) (he : find g = some e) :
    entityMatches codec guid find toProto entry
      = some (codec.serialize (toProto g e) == codec.serialize response) := by
  rw [entityMatches, h, codec.parse_serialize]
  simp only [hg, parseGuid_guidToString, he]

/-- The verdict on a changed entity is that its message is the recorded one. -/
theorem entityMatches_of_entry {guid : α → String} {find : Guid → Option β}
    {toProto : Guid → β → α} {g : Guid} (h : entry.pendingResponse = codec.serialize response)
    (hg : guid response = Engine.guidToString g) :
    entityMatches codec guid find toProto entry = some true ↔
      ∃ e, find g = some e ∧ toProto g e = response := by
  cases he : find g with
  | none =>
    rw [entityMatches, h, codec.parse_serialize]
    simp [hg, he]
  | some e =>
    rw [entityMatches_of_found h hg he]
    simp only [Option.some.injEq, beq_iff_eq, exists_eq_left']
    constructor
    · exact fun heq => codec.serialize_inj heq
    · exact fun heq => congrArg _ heq

end Records

omit [Wire] in
/-- A GUID the engine printed is found again: accounts. -/
theorem accountExists_guidToString (b : Book) (g : Guid) :
    accountExists b (Engine.guidToString g) = (b.account g).isSome := by
  rw [accountExists, parseGuid_guidToString]

omit [Wire] in
/-- A GUID the engine printed is found again: transactions. -/
theorem transactionExists_guidToString (b : Book) (g : Guid) :
    transactionExists b (Engine.guidToString g) = (b.transaction g).isSome := by
  rw [transactionExists, parseGuid_guidToString]

omit [Wire] in
/-- A GUID that was accepted once is accepted again: accounts. -/
theorem accountExists_of_find {b b' : Book} {guid context : String} {g : Guid}
    (h : findAccount b guid context = .ok g) : accountExists b' guid = (b'.account g).isSome := by
  rw [accountExists, parseGuid, (findAccount_ok h).1]

omit [Wire] in
/-- A GUID that was accepted once is accepted again: transactions. -/
theorem transactionExists_of_find {b b' : Book} {guid context : String} {g : Guid}
    (h : findTransaction b guid context = .ok g) :
    transactionExists b' guid = (b'.transaction g).isSome := by
  rw [transactionExists, parseGuid, (findTransaction_ok h).1]

/-! ### The eight RPCs

The two books differ by one edit, whose entity is the one that the entry names. -/

section Exactness

variable {fate : Fate} {b : Book}

/-- **CreateAccount**: the GUID was not in use before. -/
theorem exact_createAccount {request : Shim.CreateAccountRequest} {edit : Edit Shim.Account}
    (hfresh : fate.Fresh b) (h : (Mutation.createAccount request).plan fate b = .ok edit) :
    Exact ((Mutation.createAccount request).entry edit.response) b (edit.after b) := by
  obtain ⟨parent, type, commodity, -, -, -, rfl⟩ := plan_createAccount_ok h
  have hguid : ∀ b' : Book, wasApplied b' ((Mutation.createAccount request).entry
      (createAccountEdit (fate.newGuid 0) b request.account type commodity parent).response)
      = some (b'.account (fate.newGuid 0)).isSome := fun b' => by
    rw [wasApplied_createAccount b' rfl, createdExists_of_entry _ rfl,
      ← accountExists_guidToString]
    rfl
  constructor
  · left
    have hset : (setAccount (fate.newGuid 0) request.account type commodity parent
        (b.entities.insert (.account (fate.newGuid 0)) Account.blank)).lookup
          (.account (fate.newGuid 0))
        = some (accountSet request.account type commodity parent Account.blank) :=
      lookup_setAccount_self _ _ _ _ (Finmap.lookup_insert _)
    rw [hguid, createAccountEdit, Edit.after_inPlace]
    show some (Option.isSome ((settle _ _).lookup _)) = _
    rw [lookup_settle_self, hset]
    rfl
  · rw [hguid, (hfresh 0).1]
    simp

omit [Wire] in
/-- The message of an account shows every field the setters write. -/
theorem accountSet_eq_self {g parent : Guid} {account : Account} {spec : Shim.Account}
    {type : GNCAccountType} {commodity : Commodity} {context : String}
    (htype : accountTypeFromProto spec.type context = .ok type)
    (h : accountToProto g account
      = accountToProto g (accountSet spec type commodity parent account)) :
    accountSet spec type commodity parent account = account := by
  simp only [accountToProto, Shim.Account.mk.injEq] at h
  obtain ⟨-, hparent, hname, hty, hcom, hcode, hdesc, hph, hhid⟩ := h
  have hparent : account.parent = some parent :=
    Option.map_injective Engine.guidToString_injective hparent
  have hcom : account.commodity = some commodity.name :=
    Option.map_injective commodityIdToProto_injective hcom
  have hty : account.type = type := accountTypeToProto_inj_of_settable htype hty
  have hname : account.name = cStr spec.name := hname
  have hcode : account.code = cStr spec.code := hcode
  have hdesc : account.description = cStr spec.description := hdesc
  have hph : account.placeholder = spec.placeholder := hph
  have hhid : account.hidden = spec.hidden := hhid
  show Account.mk (cStr spec.name) type (some commodity.name) (cStr spec.code)
    (cStr spec.description) spec.placeholder spec.hidden (some parent) account.reconcileLastDate
    account.destroying = account
  rw [← hparent, ← hcom, ← hty, ← hname, ← hcode, ← hdesc, ← hph, ← hhid]

/-- **UpdateAccount**: an account that already looks like the response would not be changed. -/
theorem exact_updateAccount {request : Shim.UpdateAccountRequest} {edit : Edit Shim.Account}
    (hrest : AtRest b.entities) (h : (Mutation.updateAccount request).plan fate b = .ok edit) :
    Exact ((Mutation.updateAccount request).entry edit.response) b (edit.after b) := by
  obtain ⟨g, type, commodity, parent, hfind, -, htype, -, -, -, rfl⟩ := plan_updateAccount_ok h
  obtain ⟨-, account, haccount⟩ := findAccount_ok hfind
  have haccount : b.entities.lookup (.account g) = some account := haccount
  have hset := lookup_setAccount_self request.account type commodity parent haccount
  have hlive : account.destroying = false := hrest _ _ haccount
  have hresponse : (updateAccountEdit g b request.account type commodity parent).response
      = accountToProto g (accountSet request.account type commodity parent account) := by
    show accountResponse g _ = _
    rw [accountResponse, hset]
    rfl
  -- What the verdict asks of a book, whichever of the two it is.
  have hmatch : ∀ b' : Book, wasApplied b' ((Mutation.updateAccount request).entry
      (updateAccountEdit g b request.account type commodity parent).response) = some true ↔
      ∃ a, b'.account g = some a ∧ accountToProto g a
        = accountToProto g (accountSet request.account type commodity parent account) :=
    fun b' => by
      rw [wasApplied_updateAccount b' rfl, entityMatches_of_entry (g := g) rfl (by
        rw [hresponse]; rfl), hresponse]
  have hafter : (updateAccountEdit g b request.account type commodity parent).after b
      = b.setEntities (settle (.account g)
          (setAccount g request.account type commodity parent b.entities)) := by
    rw [updateAccountEdit, Edit.after_inPlace]
  have hsettle : Entity.settle (.account g)
      (accountSet request.account type commodity parent account)
      = some (accountSet request.account type commodity parent account) :=
    Entity.settle_of_atRest (.account g) hlive
  constructor
  · left
    rw [hmatch, hafter]
    refine ⟨_, ?_, rfl⟩
    show (settle _ _).lookup _ = _
    rw [lookup_settle_self, hset]
    exact hsettle
  · rw [hmatch]
    intro hshown
    obtain ⟨a, ha, hproto⟩ := hshown
    have ha : b.entities.lookup (.account g) = some a := ha
    rw [haccount] at ha
    cases ha
    -- All fields that the edit sets are shown, so it sets what is there.
    have hsame := accountSet_eq_self htype hproto
    have hcommodity : account.commodity = some commodity.name := by
      rw [← hsame]
      rfl
    rw [hafter, setAccount_of_commodity haccount hcommodity, hsame,
      Finmap.insert_lookup_self haccount, hrest.settle_eq, Book.setEntities_self]

/-- **DeleteAccount**: the account was there before and is gone after. -/
theorem exact_deleteAccount {request : Shim.DeleteAccountRequest} {edit : Edit Unit}
    (h : (Mutation.deleteAccount request).plan fate b = .ok edit) :
    Exact ((Mutation.deleteAccount request).entry edit.response) b (edit.after b) := by
  obtain ⟨g, hfind, -, -, rfl⟩ := plan_deleteAccount_ok h
  obtain ⟨-, account, haccount⟩ := findAccount_ok hfind
  have hgone : ∀ b' : Book, wasApplied b' ((Mutation.deleteAccount request).entry
      (deleteAccountEdit g).response) = some (!(b'.account g).isSome) := fun b' => by
    rw [wasApplied_deleteAccount b' rfl, deletedGone_of_entry _ _ rfl]
    exact congrArg (fun found => some (!found)) (accountExists_of_find hfind)
  constructor
  · left
    have haccount : b.entities.lookup (.account g) = some account := haccount
    rw [hgone, deleteAccountEdit, Edit.after_destroy]
    show some (!Option.isSome ((settle _ _).lookup _)) = _
    rw [editAccount_of_lookup haccount, lookup_settle_self, Finmap.lookup_insert]
    rfl
  · rw [hgone, haccount]
    simp

/-- **SetReconcileInfo**: the date is the only thing it sets, and the response shows it. -/
theorem exact_setReconcileInfo {request : Shim.SetReconcileInfoRequest}
    {edit : Edit Shim.ReconcileInfo} (hrest : AtRest b.entities)
    (h : (Mutation.setReconcileInfo request).plan fate b = .ok edit) :
    Exact ((Mutation.setReconcileInfo request).entry edit.response) b (edit.after b) := by
  obtain ⟨g, lastDate, date, hfind, -, -, rfl⟩ := plan_setReconcileInfo_ok h
  obtain ⟨-, account, haccount⟩ := findAccount_ok hfind
  have haccount : b.entities.lookup (.account g) = some account := haccount
  have hedit := editAccount_of_lookup (f := Account.setReconcileLastDate date) haccount
  have hafter : (setReconcileInfoEdit g b date).after b = b.setEntities
      (b.entities.insert (.account g) (account.setReconcileLastDate date)) := by
    have hlive : account.destroying = false := hrest _ _ haccount
    have hrest' : AtRest (b.entities.insert (.account g) (account.setReconcileLastDate date)) :=
      AtRest.insert hrest _ hlive
    rw [setReconcileInfoEdit, Edit.after_inPlace, hedit, hrest'.settle_eq]
  have hresponse : (setReconcileInfoEdit g b date).response
      = reconcileInfoToProto ((setReconcileInfoEdit g b date).after b) g
          (account.setReconcileLastDate date) := by
    rw [hafter]
    show reconcileInfoToProto (b.setEntities (editAccount g _ b.entities)) g
      (((editAccount g _ b.entities).lookup (.account g) : Option Account).getD .blank) = _
    rw [hedit, Finmap.lookup_insert]
    rfl
  -- What the verdict asks of a book, whichever of the two it is.
  have hmatch : ∀ b' : Book, wasApplied b' ((Mutation.setReconcileInfo request).entry
      (setReconcileInfoEdit g b date).response) = some true ↔
      ∃ a, b'.account g = some a ∧ reconcileInfoToProto b' g a
        = (setReconcileInfoEdit g b date).response := fun b' => by
    rw [wasApplied_setReconcileInfo b' rfl, entityMatches_of_entry (g := g) rfl (by
      rw [hresponse]; rfl)]
  constructor
  · left
    rw [hmatch]
    refine ⟨account.setReconcileLastDate date, ?_, hresponse.symm⟩
    rw [hafter]
    exact Finmap.lookup_insert _
  · rw [hmatch, hresponse]
    intro hshown
    obtain ⟨a, ha, hproto⟩ := hshown
    have ha : b.entities.lookup (.account g) = some a := ha
    rw [haccount] at ha
    cases ha
    have hdate : account.reconcileLastDate = some date :=
      Option.map_injective dateToProto_injective (congrArg Shim.ReconcileInfo.lastDate hproto)
    have hsame : account.setReconcileLastDate date = account := by
      rw [Account.setReconcileLastDate, ← hdate]
    rw [hafter, hsame, Finmap.insert_lookup_self haccount, Book.setEntities_self]

/-- **PostTransaction**: the GUID was not in use before. -/
theorem exact_postTransaction {request : Shim.PostTransactionRequest}
    {edit : Edit Shim.Transaction} (hfresh : fate.Fresh b)
    (h : (Mutation.postTransaction request).plan fate b = .ok edit) :
    Exact ((Mutation.postTransaction request).entry edit.response) b (edit.after b) := by
  obtain ⟨plan, -, rfl⟩ := plan_postTransaction_ok h
  have hguid : ∀ b' : Book, wasApplied b' ((Mutation.postTransaction request).entry
      (postTransactionEdit fate.newGuid b plan).response)
      = some (b'.transaction (fate.newGuid 0)).isSome := fun b' => by
    rw [wasApplied_postTransaction b' rfl, createdExists_of_entry _ rfl,
      ← transactionExists_guidToString]
    rfl
  constructor
  · left
    rw [hguid, postTransactionEdit, Edit.after_inPlace]
    show some (Option.isSome ((settle _ _).lookup _)) = _
    have hlive : (applyPlan fate.newGuid b plan Transaction.blank).destroying = false :=
      (applyPlan_header plan _).destroying
    rw [editTransaction_of_lookup (Finmap.lookup_insert _), lookup_settle_self,
      Finmap.lookup_insert, Option.bind_some, Entity.settle, hlive]
    rfl
  · rw [hguid, (hfresh 0).2.1]
    simp

omit [Wire] in
/-- The header a plan sets is shown by the message, so a transaction whose message is that
of the planned one had that header. -/
theorem setHeader_eq_self {g : Guid} {transaction planned : Transaction} {plan : TransactionPlan}
    (hvalid : plan.postDate.valid = true)
    (hheader : SameHeader (plan.setHeader transaction) planned)
    (h : transactionToProto g transaction = transactionToProto g planned) :
    plan.setHeader transaction = transaction := by
  simp only [transactionToProto, Shim.Transaction.mk.injEq] at h
  obtain ⟨-, hcurrency, hdate, htime, hnum, hdesc, -⟩ := h
  have hcurrency : transaction.currency = some plan.currency.name := by
    rw [hheader.currency] at hcurrency
    exact Option.map_injective commodityIdToProto_injective hcurrency
  have hdate : transaction.postDate = some plan.postDate := by
    rw [hheader.postDate] at hdate
    have hplanned : (plan.setHeader transaction).postDate.filter GDate.valid
        = some plan.postDate := by
      show (some plan.postDate).filter GDate.valid = _
      simp [hvalid]
    rw [hplanned] at hdate
    have hfilter := Option.map_injective dateToProto_injective hdate
    exact (Option.filter_eq_some_iff.mp hfilter).1
  have htime : transaction.enterTime = plan.enterTime := htime.trans hheader.enterTime
  have hnum : transaction.num = cStr plan.num := hnum.trans hheader.num
  have hdesc : transaction.description = cStr plan.description := hdesc.trans hheader.description
  -- With the currency unchanged, no split is rounded anew.
  have hsplits : (transaction.setCurrency plan.currency).splits = transaction.splits := by
    rw [Transaction.setCurrency, if_pos (Or.inr hcurrency)]
  show Transaction.mk (some plan.currency.name) (some plan.postDate) plan.enterTime
    (cStr plan.num) (cStr plan.description) (transaction.setCurrency plan.currency).splits
    transaction.readOnly transaction.destroying = transaction
  rw [hsplits, ← hcurrency, ← hdate, ← htime, ← hnum, ← hdesc]

omit [Wire] in
/-- Lists of live, flagged splits that print alike are alike. -/
theorem splits_eq_of_toProto {old new : List Split} (hold : ∀ s ∈ old, s.AtRest)
    (hnew : ∀ s ∈ new, s.AtRest) (h : old.map splitToProto = new.map splitToProto) :
    old = new := by
  induction old generalizing new with
  | nil => exact (List.map_eq_nil_iff.mp h.symm).symm
  | cons s old ih =>
    cases new with
    | nil => cases h
    | cons s' new =>
      rw [List.map_cons, List.map_cons, List.cons.injEq] at h
      have hs := hold s List.mem_cons_self
      have hs' := hnew s' List.mem_cons_self
      rw [splitToProto_inj_of_settable hs'.flag (hs.live.trans hs'.live.symm) h.1,
        ih (fun t ht => hold t (List.mem_cons_of_mem _ ht))
          (fun t ht => hnew t (List.mem_cons_of_mem _ ht)) h.2]

/-- **UpdateTransaction**: header and splits are all shown, the splits in their order. -/
theorem exact_updateTransaction {request : Shim.UpdateTransactionRequest}
    {edit : Edit Shim.Transaction} (hrest : AtRest b.entities)
    (h : (Mutation.updateTransaction request).plan fate b = .ok edit) :
    Exact ((Mutation.updateTransaction request).entry edit.response) b (edit.after b) := by
  obtain ⟨g, plan, hfind, hplan, rfl⟩ := plan_updateTransaction_ok h
  obtain ⟨-, transaction, htransaction⟩ := findTransaction_ok hfind
  have hlookup : b.entities.lookup (.transaction g) = some transaction := htransaction
  have htrest : transaction.AtRest := hrest _ _ hlookup
  let committed := plan.committed fate.newGuid b transaction
  have hheader : SameHeader (plan.setHeader transaction) committed := committed_header plan _
  have hcommitted : committed.AtRest := committed_atRest (planTransaction_settable hplan) htrest
  have hresponse : (updateTransactionEdit fate.newGuid g b plan).response
      = transactionToProto g committed := response_updateTransactionEdit htransaction
  have hafter : (updateTransactionEdit fate.newGuid g b plan).after b
      = b.setEntities (b.entities.insert (.transaction g) committed) :=
    after_updateTransactionEdit htransaction htrest.live
  have hmatch : ∀ b' : Book, wasApplied b' ((Mutation.updateTransaction request).entry
      (updateTransactionEdit fate.newGuid g b plan).response) = some true ↔
      ∃ t, b'.transaction g = some t ∧ transactionToProto g t = transactionToProto g committed :=
    fun b' => by
      rw [wasApplied_updateTransaction b' rfl, entityMatches_of_entry (g := g) rfl (by
        rw [hresponse]; rfl), hresponse]
  constructor
  · left
    rw [hmatch, hafter]
    exact ⟨committed, Finmap.lookup_insert _, rfl⟩
  · rw [hmatch]
    intro hshown
    obtain ⟨t, ht, hproto⟩ := hshown
    rw [htransaction] at ht
    cases ht
    -- The header first, then the splits.
    have hself := setHeader_eq_self (planTransaction_date_valid hplan) hheader hproto
    have hsplits : transaction.splits = committed.splits := by
      have hmap := congrArg Shim.Transaction.splits hproto
      simp only [transactionToProto, htrest.liveSplits_eq, hcommitted.liveSplits_eq] at hmap
      exact splits_eq_of_toProto htrest.splits hcommitted.splits hmap
    have hsame : committed = transaction := by
      rw [hself] at hheader
      exact hheader.eq hsplits.symm
    show (updateTransactionEdit fate.newGuid g b plan).after b = b
    rw [hafter]
    show b.setEntities (b.entities.insert (.transaction g) committed) = b
    rw [hsame, Finmap.insert_lookup_self hlookup, Book.setEntities_self]

/-- **DeleteTransaction**: the transaction was there before and is gone after. -/
theorem exact_deleteTransaction {request : Shim.DeleteTransactionRequest} {edit : Edit Unit}
    (hrest : AtRest b.entities) (h : (Mutation.deleteTransaction request).plan fate b = .ok edit) :
    Exact ((Mutation.deleteTransaction request).entry edit.response) b (edit.after b) := by
  obtain ⟨g, hfind, rfl⟩ := plan_deleteTransaction_ok h
  obtain ⟨-, transaction, htransaction⟩ := findTransaction_ok hfind
  have hgone : ∀ b' : Book, wasApplied b' ((Mutation.deleteTransaction request).entry
      (deleteTransactionEdit g).response) = some (!(b'.transaction g).isSome) := fun b' => by
    rw [wasApplied_deleteTransaction b' rfl, deletedGone_of_entry _ _ rfl]
    exact congrArg (fun found => some (!found)) (transactionExists_of_find hfind)
  constructor
  · have hlookup : b.entities.lookup (.transaction g) = some transaction := htransaction
    have hedit := editTransaction_of_lookup (f := Transaction.destroy) hlookup
    cases hreadOnly : transaction.readOnly with
    | true =>
      -- The engine leaves a read-only transaction alone.
      right
      have hsame : transaction.destroy = transaction := by simp [Transaction.destroy, hreadOnly]
      rw [deleteTransactionEdit, Edit.after_destroy, hedit, hsame,
        Finmap.insert_lookup_self hlookup, hrest.settle_eq, Book.setEntities_self]
    | false =>
      left
      rw [hgone, deleteTransactionEdit, Edit.after_destroy]
      show some (!Option.isSome ((settle _ _).lookup _)) = _
      rw [hedit, lookup_settle_self, Finmap.lookup_insert]
      simp [Entity.settle, Transaction.destroy, hreadOnly]
  · rw [hgone, htransaction]
    simp

/-- **AddPrice**: the GUID was not in use before, but the database may drop the price for one that
outranks it, and then nothing changes. -/
theorem exact_addPrice {request : Shim.AddPriceRequest} {edit : Edit Shim.Price}
    (hfresh : fate.Fresh b) (h : (Mutation.addPrice request).plan fate b = .ok edit) :
    Exact ((Mutation.addPrice request).entry edit.response) b (edit.after b) := by
  obtain ⟨commodity, currency, wireDate, date, value, -, -, -, -, -, -, rfl⟩ := plan_addPrice_ok h
  have hguid : ∀ b' : Book, wasApplied b' ((Mutation.addPrice request).entry
      (Edit.price (fate.newGuid 0)
        (newPrice commodity currency date value request.price.source)).response)
      = some (b'.price (fate.newGuid 0)).isSome := fun b' => by
    rw [wasApplied_addPrice b' rfl, createdExists_of_entry _ rfl]
    show (parseGuid (Engine.guidToString (fate.newGuid 0))).map _ = _
    rw [parseGuid_guidToString]
    rfl
  constructor
  · rw [hguid, Edit.after_price]
    have hlookup : (b.entities.insert (.price (fate.newGuid 0))
        (newPrice commodity currency date value request.price.source)).lookup
          (.price (fate.newGuid 0))
        = some (newPrice commodity currency date value request.price.source) :=
      Finmap.lookup_insert _
    -- Outranked, the new price is removed again at once.
    by_cases hout : Outranked (b.entities.insert (.price (fate.newGuid 0))
        (newPrice commodity currency date value request.price.source))
        (newPrice commodity currency date value request.price.source)
    · right
      have hnone : b.entities.lookup (.price (fate.newGuid 0)) = none := (hfresh 0).2.2
      simp only [gncPricedbAddPrice, hlookup, if_pos hout]
      rw [Finmap.erase_insert_self hnone, Book.setEntities_self]
    · left
      show some (Option.isSome ((gncPricedbAddPrice _ _).lookup _)) = _
      simp only [gncPricedbAddPrice, hlookup, if_neg hout, Finmap.lookup_insert]
      rfl
  · rw [hguid, (hfresh 0).2.2]
    simp

/-- **The verdict is exact**, on the book before a mutation and on the book after it. -/
theorem wasApplied_exact {m : Mutation} {edit : Edit m.Response} (hrest : AtRest b.entities)
    (hfresh : fate.Fresh b) (h : m.plan fate b = .ok edit) :
    Exact (m.entry edit.response) b (edit.after b) := by
  cases m with
  | createAccount request => exact exact_createAccount hfresh h
  | updateAccount request => exact exact_updateAccount hrest h
  | deleteAccount request => exact exact_deleteAccount h
  | setReconcileInfo request => exact exact_setReconcileInfo hrest h
  | postTransaction request => exact exact_postTransaction hfresh h
  | updateTransaction request => exact exact_updateTransaction hrest h
  | deleteTransaction request => exact exact_deleteTransaction hrest h
  | addPrice request => exact exact_addPrice hfresh h

end Exactness

end Daichod
