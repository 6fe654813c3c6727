import Daichod.Rpc.Dispatch

/-!
# Daichod.Rpc.Anatomy

Every mutating handler has one shape: checks on the request alone, the open book, checks
against the book, and then an **edit** that can no longer fail validation. Here the edit is
a value (`Edit`), and validation a function to it (`Mutation.precheck`, `Mutation.plan`).

`Mutation.apply_eq` says that a handler is its validation followed by its edit. All that is
proved about handlers goes through it, so the handlers' code is opened here only.

There are three kinds of edit, by where `record_pending` stands:

* `Edit.inPlace` changes the live object first, inside an open engine edit, and calls
  `record_pending` there (create, update, post and set);
* `Edit.destroy` calls `record_pending` before it opens the engine edit (both deletes);
* `Edit.price` is `Edit.inPlace` with `gnc_pricedb_add_price` as its end.
-/

namespace Daichod

variable [Wire] [Engine]

/-- A validated mutation: what it does to the store before `record_pending`, the response it
records, what it does after, and the two ways its last step can end. -/
structure Edit (Response : Type) where
  ref : EntityRef
  opening : EditStore Entity → EditStore Entity
  response : Response
  marking : EditStore Entity → EditStore Entity
  commit : EditStore Entity → EditStore Entity
  rollback : EditStore Entity → EditStore Entity

namespace Edit

variable {Response : Type}

/-- Run an edit. -/
def run (edit : Edit Response) (fate : Fate) (recordPending : PendingRecorder Response) :
    Exec Response := do
  onStore edit.opening
  recordPending edit.response
  onStore edit.marking
  finalStep fate edit.commit edit.rollback
  return edit.response

/-- Change a live object inside an edit of its own, drawing `joins` into it. -/
def inPlace (ref : EntityRef) (joins : Finmap Entity → Finset EntityRef)
    (change : Finmap Entity → Finmap Entity) (response : Response) : Edit Response where
  ref := ref
  opening store := ((store.beginEdit ref).join (joins store.working)).write change
  response := response
  marking := id
  commit store := (decrementEditlevel ref store).flush
  rollback store := (decrementEditlevel ref store).revert

/-- Mark an object for destruction and commit. -/
def destroy (ref : EntityRef) (change : Finmap Entity → Finmap Entity) : Edit Unit where
  ref := ref
  opening := id
  response := ()
  marking store := (store.beginEdit ref).write change
  commit store := (decrementEditlevel ref store).flush
  rollback store := (decrementEditlevel ref store).revert

/-- Create a price and add it to the price database. -/
def price (guid : Guid) (price : Price) : Edit Shim.Price where
  ref := .price guid
  opening store := (store.beginEdit (.price guid)).write (·.insert (.price guid) price)
  response := priceToProto guid price
  marking := id
  commit store := ((store.close (.price guid)).write (gncPricedbAddPrice guid)).flush
  rollback store := (store.close (.price guid)).revert

/-- The three kinds of edits. -/
inductive OfKind : {Response : Type} → Edit Response → Prop
  | inPlace {Response : Type} (ref : EntityRef) (joins : Finmap Entity → Finset EntityRef)
      (change : Finmap Entity → Finmap Entity) (response : Response) :
      OfKind (inPlace ref joins change response)
  | destroy (ref : EntityRef) (change : Finmap Entity → Finmap Entity) :
      OfKind (destroy ref change)
  | price (guid : Guid) (p : Price) : OfKind (price guid p)

end Edit

/-! ### The edits of the eight RPCs

Each edit holds the response it answers with, the change it makes to the live object, and what
`CommitEdit` and a rollback make of that. -/

/-- The new entity value's protobuf image, read back from the changed table. -/
def accountResponse (guid : Guid) (table : Finmap Entity) : Shim.Account :=
  accountToProto guid ((table.lookup (.account guid) : Option Account).getD .blank)

/-- What a transaction handler answers with, read back from the changed table as well. -/
def transactionResponse (guid : Guid) (table : Finmap Entity) : Shim.Transaction :=
  transactionToProto guid ((table.lookup (.transaction guid) : Option Transaction).getD .blank)

/-- The setters `CreateAccount` and `UpdateAccount` run before the commodity's. -/
def setAccountHead (spec : Shim.Account) (type : GNCAccountType) (account : Account) : Account :=
  account |>.setName spec.name |>.setType type

/-- The setters `CreateAccount` and `UpdateAccount` run after the commodity's. -/
def setAccountTail (spec : Shim.Account) (parent : Guid) (account : Account) : Account :=
  account
    |>.setCode spec.code
    |>.setDescription spec.description
    |>.setPlaceholder spec.placeholder
    |>.setHidden spec.hidden
    |>.setParent parent

/-- All setters of an account. -/
def setAccount (guid : Guid) (spec : Shim.Account) (type : GNCAccountType)
    (commodity : Commodity) (parent : Guid) (table : Finmap Entity) : Finmap Entity :=
  editAccount guid (setAccountTail spec parent)
    (setCommodity guid commodity (editAccount guid (setAccountHead spec type) table))

/-- The edit of `CreateAccount`. -/
def createAccountEdit (guid : Guid) (book : Book) (spec : Shim.Account) (type : GNCAccountType)
    (commodity : Commodity) (parent : Guid) : Edit Shim.Account :=
  let create := fun table : Finmap Entity => table.insert (.account guid) Account.blank
  let change := fun table => setAccount guid spec type commodity parent (create table)
  Edit.inPlace (.account guid)
    (fun table => setCommodityJoins guid commodity
      (editAccount guid (setAccountHead spec type) (create table)))
    change (accountResponse guid (change book.entities))

/-- The edit of `UpdateAccount`. -/
def updateAccountEdit (guid : Guid) (book : Book) (spec : Shim.Account) (type : GNCAccountType)
    (commodity : Commodity) (parent : Guid) : Edit Shim.Account :=
  let change := setAccount guid spec type commodity parent
  Edit.inPlace (.account guid)
    (fun table => setCommodityJoins guid commodity
      (editAccount guid (setAccountHead spec type) table))
    change (accountResponse guid (change book.entities))

/-- The edit of `DeleteAccount`. -/
def deleteAccountEdit (guid : Guid) : Edit Unit :=
  Edit.destroy (.account guid) (editAccount guid ({ · with destroying := true }))

/-- The edit of `SetReconcileInfo`. -/
def setReconcileInfoEdit (guid : Guid) (book : Book) (date : GDate) : Edit Shim.ReconcileInfo :=
  let change := editAccount guid (Account.setReconcileLastDate date)
  let table := change book.entities
  Edit.inPlace (.account guid) (fun _ => ∅) change
    (reconcileInfoToProto { book with entities := table } guid
      ((table.lookup (.account guid) : Option Account).getD .blank))

/-- The edit of `PostTransaction`. -/
def postTransactionEdit (newGuid : ℕ → Guid) (book : Book) (plan : TransactionPlan) :
    Edit Shim.Transaction :=
  let guid := newGuid 0
  let change := fun table : Finmap Entity => editTransaction guid (applyPlan newGuid book plan)
    (table.insert (.transaction guid) Transaction.blank)
  Edit.inPlace (.transaction guid) (fun _ => ∅) change
    (transactionResponse guid (change book.entities))

/-- The edit of `UpdateTransaction`. -/
def updateTransactionEdit (newGuid : ℕ → Guid) (guid : Guid) (book : Book)
    (plan : TransactionPlan) : Edit Shim.Transaction :=
  let change := editTransaction guid (applyPlan newGuid book plan)
  Edit.inPlace (.transaction guid) (fun _ => ∅) change
    (transactionResponse guid (change book.entities))

/-- The edit of `DeleteTransaction`. -/
def deleteTransactionEdit (guid : Guid) : Edit Unit :=
  Edit.destroy (.transaction guid) (editTransaction guid Transaction.destroy)

/-! ### Validation

What each handler checks, in the source's order, as a function to the edit it then makes. Nothing
here writes: the book is read and the edit is a value. -/

/-- A validation step of a handler. -/
def check {α : Type} (v : Except ShimError α) : Except Exn α := v.mapError Exn.shim

/-- `CheckNoCycle`, as a validation step. -/
def noCycle (book : Book) (account newParent : Guid) (context : String) : Except Exn Unit :=
  match walkMeets book account (book.accounts.card + 1) (some newParent) with
  | some true => .error (.shim ⟨.invalidArgument, "parent_guid would create a cycle", context⟩)
  | some false => .ok ()
  | none => .error .killed

/-- What a handler checks of its request before it asks for the book. -/
def Mutation.precheck : Mutation → Except ShimError Unit
  | .createAccount request => do
    ensure (request.account.guid.isEmpty = true) .invalidArgument
      "guid must be empty on create; the engine assigns" "account.guid"
    ensure (request.account.name.isEmpty = false) .invalidArgument "name is required"
      "account.name"
    ensure ((request.account.parentGuid.getD "").isEmpty = false) .invalidArgument
      "parent_guid is required" "account.parent_guid"
  | .updateAccount request => do
    ensure (request.account.guid.isEmpty = false) .invalidArgument "guid is required on update"
      "account.guid"
    ensure (request.account.name.isEmpty = false) .invalidArgument "name is required"
      "account.name"
  | .postTransaction request =>
    ensure (request.transaction.guid.isEmpty = true) .invalidArgument
      "guid must be empty on create; the engine assigns" "transaction.guid"
  | .updateTransaction request =>
    ensure (request.transaction.guid.isEmpty = false) .invalidArgument
      "guid is required on update" "transaction.guid"
  | .addPrice request =>
    ensure (request.price.guid.isEmpty = true) .invalidArgument
      "guid must be empty on create; the engine assigns" "price.guid"
  | .deleteAccount _ | .setReconcileInfo _ | .deleteTransaction _ => .ok ()

/-- What a handler checks against the book, and the edit it then runs. -/
def Mutation.plan : (m : Mutation) → Fate → Book → Except Exn (Edit m.Response)
  | .createAccount request, fate, book => do
    let spec := request.account
    let parent ← check (findAccount book (spec.parentGuid.getD "") "account.parent_guid")
    let type ← check (accountTypeFromProto spec.type "account.type")
    let commodity ← check (findCommodityField book spec.commodity "account.commodity")
    return createAccountEdit (fate.newGuid 0) book spec type commodity parent
  | .updateAccount request, _, book => do
    let spec := request.account
    let account ← check (findAccount book spec.guid "account.guid")
    check (checkIsNotRoot account book.rootAccount "account.guid")
    let type ← check (accountTypeFromProto spec.type "account.type")
    let commodity ← check (findCommodityField book spec.commodity "account.commodity")
    check (ensure ((spec.parentGuid.getD "").isEmpty = false) .invalidArgument
      "parent_guid is required (full replacement)" "account.parent_guid")
    let parent ← check (findAccount book (spec.parentGuid.getD "") "account.parent_guid")
    noCycle book account parent "account.parent_guid"
    return updateAccountEdit account book spec type commodity parent
  | .deleteAccount request, _, book => do
    let account ← check (findAccount book request.guid "guid")
    check (checkIsNotRoot account book.rootAccount "guid")
    check (ensure (¬(book.accountSplits account ≠ 0 ∨ book.hasChildren account)) .accountNotEmpty
      "account has splits or children" request.guid)
    return deleteAccountEdit account
  | .setReconcileInfo request, _, book => do
    let account ← check (findAccount book request.accountGuid "account_guid")
    let lastDate ← check (request.lastDate.elim
      (.error ⟨.invalidArgument, "last_date is required", "last_date"⟩) .ok)
    let date ← check (dateFromProto lastDate "last_date")
    return setReconcileInfoEdit account book date
  | .postTransaction request, fate, book => do
    let plan ← check (planTransaction fate.gncTime book request.transaction none)
    return postTransactionEdit fate.newGuid book plan
  | .updateTransaction request, fate, book => do
    let spec := request.transaction
    let transaction ← check (findTransaction book spec.guid "transaction.guid")
    let plan ← check (planTransaction fate.gncTime book spec (book.transaction transaction))
    return updateTransactionEdit fate.newGuid transaction book plan
  | .deleteTransaction request, _, book => do
    let transaction ← check (findTransaction book request.guid "guid")
    return deleteTransactionEdit transaction
  | .addPrice request, fate, book => do
    let spec := request.price
    let commodity ← check (findCommodity book spec.commodity "price.commodity")
    let currency ← check (findCommodity book spec.currency "price.currency")
    check (ensure (gncCommodityIsCurrency currency = true) .currencyMismatch
      "price currency is not a currency commodity" "price.currency")
    let date ← check (spec.date.elim
      (.error ⟨.invalidArgument, "date is required", "price.date"⟩) .ok)
    let date ← check (dateFromProto date "price.date")
    let value ← check (numericFromProto spec.value "price.value")
    return Edit.price (fate.newGuid 0) (newPrice commodity currency date value spec.source)

/-- The open book, as a validation step. -/
def openBookCheck (w : World) : Except Exn Book :=
  if w.session.isNone then .error (.shim ⟨.bookNotOpen, "no book is open", ""⟩) else .ok w.book

/-- All of a handler's validation. -/
def Mutation.validated (m : Mutation) (fate : Fate) (w : World) :
    Except Exn (Edit m.Response) := do
  check m.precheck
  let book ← openBookCheck w
  m.plan fate book

/-! ### A handler is its validation followed by its edit

A step lemma takes one check off both sides: `ensure_step` and `ensure_not_step` a check of a
condition, `book_step` the open book, `valid_step` a check that yields a value. The edit's own
step lemma ends the proof. They are used by `refine`, in the order in which the handler makes its
checks. -/

/-- Run a planned edit, or throw what planning threw. -/
def runPlan {α : Type} (fate : Fate) (recordPending : PendingRecorder α)
    (plan : Except Exn (Edit α)) : Exec α :=
  match plan with
  | .ok edit => edit.run fate recordPending
  | .error e => throw e

section Steps

variable {α β γ : Type} {fate : Fate} {recordPending : PendingRecorder β} {w : World}

omit [Wire] [Engine] in
/-- Checks in sequence are one check. -/
theorem check_bind (v : Except ShimError α) (f : α → Except ShimError γ) :
    check (v >>= f) = check v >>= fun a => check (f a) := by
  cases v <;> rfl

omit [Engine] in
/-- A check against the book: where it refuses, both sides refuse with its error, and where it
passes both go on with its value. -/
theorem valid_step {v : Except ShimError α} {k : α → Exec β} {p : α → Except Exn (Edit β)}
    (h : ∀ a, v = .ok a → k a w = runPlan fate recordPending (p a) w) :
    (liftValid v >>= k) w = runPlan fate recordPending (check v >>= p) w := by
  cases v with
  | error e => rfl
  | ok a => exact h a rfl

omit [Engine] in
/-- Reading the open book: what follows on either side is given the book of the world. -/
theorem book_step {k : Book → Exec β} {p : Book → Except Exn (Edit β)}
    (h : k w.book w = runPlan fate recordPending (p w.book) w) :
    (Session.book >>= k) w = runPlan fate recordPending (openBookCheck w >>= p) w := by
  rw [run_bind, Session.run_book]
  unfold openBookCheck
  by_cases hs : w.session.isNone = true
  · simp only [hs, if_true]
    rfl
  · simp only [hs]
    exact h

omit [Engine] in
/-- A guard whose throwing branch the handler writes first. -/
theorem ensure_step {c : Prop} [Decidable c] {code : ErrorCode} {message context : String}
    {x y : Exec β} {p : Unit → Except Exn (Edit β)}
    (hx : c → x w = runPlan fate recordPending (p ()) w)
    (hy : ¬c → y w = .error (.shim ⟨code, message, context⟩) w) :
    (if c then x else y) w
      = runPlan fate recordPending (check (ensure c code message context) >>= p) w := by
  by_cases hc : c
  · simp only [hc, if_true, ensure]
    exact hx hc
  · simp only [hc, if_false, ensure]
    exact hy hc

omit [Engine] in
/-- A guard whose condition the handler negates. -/
theorem ensure_not_step {c c' : Prop} [Decidable c] [Decidable c'] {code : ErrorCode}
    {message context : String} {x y : Exec β} {p : Unit → Except Exn (Edit β)} (hcc : c' ↔ ¬c)
    (hx : c' → x w = runPlan fate recordPending (p ()) w)
    (hy : c → y w = .error (.shim ⟨code, message, context⟩) w) :
    (if c then y else x) w
      = runPlan fate recordPending (check (ensure c' code message context) >>= p) w := by
  by_cases hc : c
  · have hc' : ¬c' := fun h => hcc.mp h hc
    simp only [hc, hc', if_true, if_false, ensure]
    exact hy hc
  · have hc' : c' := hcc.mpr hc
    simp only [hc, hc', if_true, if_false, ensure]
    exact hx hc'

omit [Engine] in
/-- Dereferencing a row the handler has just found reads the book and changes nothing. -/
@[simp] theorem run_derefAccount (guid : Guid) :
    derefAccount guid w = .ok ((w.book.account guid).getD .blank) w := rfl

omit [Engine] in
/-- The same of a transaction. -/
@[simp] theorem run_derefTransaction (guid : Guid) :
    derefTransaction guid w = .ok ((w.book.transaction guid).getD .blank) w := rfl

omit [Engine] in
/-- The end of a handler that changes a live object. -/
theorem inPlace_step {ref : EntityRef} {joins : Finmap Entity → Finset EntityRef}
    {change : Finmap Entity → Finmap Entity} {out : β} {w₁ : World}
    (hw : w₁ = w.onStore (Edit.inPlace ref joins change out).opening) :
    (do recordPending out; finishEdit fate ref; pure out : Exec β) w₁
      = runPlan fate recordPending (pure (Edit.inPlace ref joins change out)) w := by
  subst hw
  rfl

omit [Engine] in
/-- The end of a handler that destroys an object. -/
theorem destroy_step {recordPending : PendingRecorder Unit} {ref : EntityRef}
    {change : Finmap Entity → Finmap Entity} :
    (do recordPending ()
        onStore (EditStore.beginEdit ref)
        onStore (EditStore.write change)
        finishEdit fate ref : Exec Unit) w
      = runPlan fate recordPending (pure (Edit.destroy ref change)) w := by
  show _ = (recordPending () >>= fun _ =>
    onStore (Edit.destroy ref change).marking >>= fun _ => finishEdit fate ref >>= fun _ => pure ()) w
  rw [run_bind, run_bind]
  cases recordPending () w with
  | error e w₁ => rfl
  | ok _ w₁ =>
    simp only [run_bind, run_onStore]
    show finishEdit fate ref (w₁.onStore (Edit.destroy ref change).marking) = _
    cases finishEdit fate ref (w₁.onStore (Edit.destroy ref change).marking) <;> rfl

end Steps

/-! ### The eight handlers

One equation a handler, proved by walking down its checks. The order of the step lemmas in a proof
is the order of the checks in the source. -/

/-- `CreateAccount` is its validation followed by an edit in place. -/
theorem createAccount_eq (request : Shim.CreateAccountRequest) (fate : Fate)
    (recordPending : PendingRecorder Shim.Account) (w : World) :
    createAccount request fate recordPending w
      = runPlan fate recordPending ((Mutation.createAccount request).validated fate w) w := by
  unfold createAccount Mutation.validated Mutation.precheck Mutation.plan
  simp only [check_bind, bind_assoc]
  refine ensure_step (fun _ => ?_) (fun _ => rfl)
  refine ensure_not_step (by simp) (fun _ => ?_) (fun _ => rfl)
  refine ensure_not_step (by simp) (fun _ => ?_) (fun _ => rfl)
  refine book_step ?_
  refine valid_step fun parent _ => ?_
  refine valid_step fun type _ => ?_
  refine valid_step fun commodity _ => ?_
  refine inPlace_step ?_
  rw [Edit.inPlace]
  simp only [World.onStore, EditStore.write_join]
  rfl

/-- `UpdateAccount` is its validation followed by an edit in place. Its last check is
`CheckNoCycle`, the walk from the new parent up to the root. -/
theorem updateAccount_eq (request : Shim.UpdateAccountRequest) (fate : Fate)
    (recordPending : PendingRecorder Shim.Account) (w : World) :
    updateAccount request fate recordPending w
      = runPlan fate recordPending ((Mutation.updateAccount request).validated fate w) w := by
  unfold updateAccount Mutation.validated Mutation.precheck Mutation.plan
  simp only [check_bind, bind_assoc]
  refine ensure_not_step (by simp) (fun _ => ?_) (fun _ => rfl)
  refine ensure_not_step (by simp) (fun _ => ?_) (fun _ => rfl)
  by_cases hs : w.session.isNone = true
  · rw [run_bind, Session.run_book, openBookCheck]
    simp only [hs, if_true]
    rfl
  refine book_step ?_
  refine valid_step fun account _ => ?_
  have hroot : Session.rootAccount w = .ok w.book.rootAccount w := by
    rw [Session.rootAccount, run_bind, Session.run_book]
    simp [hs]
  rw [run_bind_ok hroot]
  refine valid_step fun _ _ => ?_
  refine valid_step fun type _ => ?_
  refine valid_step fun commodity _ => ?_
  refine ensure_not_step (by simp) (fun _ => ?_) (fun _ => rfl)
  refine valid_step fun parent _ => ?_
  -- the walk is bounded by the number of accounts; running out of it refuses on both sides
  unfold checkNoCycle noCycle
  cases walkMeets w.book account (w.book.accounts.card + 1) (some parent) with
  | none => rfl
  | some met =>
    cases met with
    | true => rfl
    | false =>
      refine inPlace_step ?_
      rw [Edit.inPlace]
      simp only [World.onStore, EditStore.write_join]
      rfl

/-- `DeleteAccount` is its validation followed by a destruction: `record_pending` comes before the
engine edit. -/
theorem deleteAccount_eq (request : Shim.DeleteAccountRequest) (fate : Fate)
    (recordPending : PendingRecorder Unit) (w : World) :
    deleteAccount request fate recordPending w
      = runPlan fate recordPending ((Mutation.deleteAccount request).validated fate w) w := by
  unfold deleteAccount Mutation.validated Mutation.precheck Mutation.plan
  by_cases hs : w.session.isNone = true
  · rw [run_bind, Session.run_book, openBookCheck]
    simp only [hs, if_true]
    rfl
  refine book_step ?_
  refine valid_step fun account _ => ?_
  have hroot : Session.rootAccount w = .ok w.book.rootAccount w := by
    rw [Session.rootAccount, run_bind, Session.run_book]
    simp [hs]
  rw [run_bind_ok hroot]
  refine valid_step fun _ _ => ?_
  exact ensure_not_step Iff.rfl (fun _ => destroy_step) (fun _ => rfl)

/-- `SetReconcileInfo` is its validation followed by an edit in place. -/
theorem setReconcileInfo_eq (request : Shim.SetReconcileInfoRequest) (fate : Fate)
    (recordPending : PendingRecorder Shim.ReconcileInfo) (w : World) :
    setReconcileInfo request fate recordPending w
      = runPlan fate recordPending ((Mutation.setReconcileInfo request).validated fate w) w := by
  unfold setReconcileInfo Mutation.validated Mutation.precheck Mutation.plan
  refine book_step ?_
  refine valid_step fun account _ => ?_
  cases request.lastDate with
  | none => rfl
  | some lastDate =>
    refine valid_step fun date _ => ?_
    refine inPlace_step ?_
    rw [Edit.inPlace]
    simp only [EditStore.join_empty]
    rfl

/-- `PostTransaction` is its validation followed by an edit in place. -/
theorem postTransaction_eq (request : Shim.PostTransactionRequest) (fate : Fate)
    (recordPending : PendingRecorder Shim.Transaction) (w : World) :
    postTransaction request fate recordPending w
      = runPlan fate recordPending ((Mutation.postTransaction request).validated fate w) w := by
  unfold postTransaction Mutation.validated Mutation.precheck Mutation.plan
  refine ensure_step (fun _ => ?_) (fun _ => rfl)
  refine book_step ?_
  refine valid_step fun plan _ => ?_
  refine inPlace_step ?_
  rw [Edit.inPlace]
  simp only [EditStore.join_empty]
  rfl

/-- `UpdateTransaction` is its validation followed by an edit in place, which replaces the splits as
a whole. -/
theorem updateTransaction_eq (request : Shim.UpdateTransactionRequest) (fate : Fate)
    (recordPending : PendingRecorder Shim.Transaction) (w : World) :
    updateTransaction request fate recordPending w
      = runPlan fate recordPending ((Mutation.updateTransaction request).validated fate w) w := by
  unfold updateTransaction Mutation.validated Mutation.precheck Mutation.plan
  refine ensure_not_step (by simp) (fun _ => ?_) (fun _ => rfl)
  refine book_step ?_
  refine valid_step fun transaction _ => ?_
  refine valid_step fun plan _ => ?_
  refine inPlace_step ?_
  rw [Edit.inPlace]
  simp only [EditStore.join_empty]
  rfl

/-- `DeleteTransaction` is its validation followed by a destruction. -/
theorem deleteTransaction_eq (request : Shim.DeleteTransactionRequest) (fate : Fate)
    (recordPending : PendingRecorder Unit) (w : World) :
    deleteTransaction request fate recordPending w
      = runPlan fate recordPending ((Mutation.deleteTransaction request).validated fate w) w := by
  unfold deleteTransaction Mutation.validated Mutation.precheck Mutation.plan
  refine book_step ?_
  exact valid_step fun transaction _ => destroy_step

/-- `AddPrice` is its validation followed by the price edit, with `gnc_pricedb_add_price` at its
end. -/
theorem addPrice_eq (request : Shim.AddPriceRequest) (fate : Fate)
    (recordPending : PendingRecorder Shim.Price) (w : World) :
    addPrice request fate recordPending w
      = runPlan fate recordPending ((Mutation.addPrice request).validated fate w) w := by
  unfold addPrice Mutation.validated Mutation.precheck Mutation.plan
  refine ensure_step (fun _ => ?_) (fun _ => rfl)
  refine book_step ?_
  refine valid_step fun commodity _ => ?_
  refine valid_step fun currency _ => ?_
  refine ensure_not_step (by simp) (fun _ => ?_) (fun _ => rfl)
  cases request.price.date with
  | none => rfl
  | some date =>
    refine valid_step fun date _ => ?_
    refine valid_step fun value _ => ?_
    rfl

/-- **A handler is its validation followed by its edit.** -/
theorem Mutation.apply_eq (m : Mutation) (fate : Fate) (recordPending : PendingRecorder m.Response)
    (w : World) :
    m.apply fate recordPending w = runPlan fate recordPending (m.validated fate w) w := by
  cases m with
  | createAccount request => exact createAccount_eq request fate recordPending w
  | updateAccount request => exact updateAccount_eq request fate recordPending w
  | deleteAccount request => exact deleteAccount_eq request fate recordPending w
  | setReconcileInfo request => exact setReconcileInfo_eq request fate recordPending w
  | postTransaction request => exact postTransaction_eq request fate recordPending w
  | updateTransaction request => exact updateTransaction_eq request fate recordPending w
  | deleteTransaction request => exact deleteTransaction_eq request fate recordPending w
  | addPrice request => exact addPrice_eq request fate recordPending w

end Daichod
