import Daichod.Rpc.Ran

/-!
# Daichod.Rpc.Effect

What a mutation does to a book when nothing goes wrong. `Mutation.effect` is defined by
running the handler alone on the book; `Mutation.effect_of_plan` computes it from the edit.

On a store without open edits every edit is **atomic** (`Edit.Atomic`): until its last step
the durable copy is untouched, an accepted last step makes exactly its result durable, and
a declined one leaves the book as it was. Edits also keep a book at rest (`AtRest`): no
object of it is marked for destruction and every reconcile flag is one the engine sets.

## Proof shape

Each of the three kinds of edits is run once on a store at rest, as far as its commit
(`commit_inPlace_ofTable` and its siblings). From that come the table it results in, the book
after it, and that it is atomic. What an RPC plans is then read off its handler
(`plan_createAccount_ok` and its siblings), each such lemma saying which checks were passed and
which edit came out; every later proof about an RPC starts from its lemma and never opens
`Mutation.plan` again.
-/

namespace Daichod

/-! ### Atomic edits

An edit on a store at rest is alone in it: its last step closes the only scope there is, and the
flush that follows takes all of memory. So it comes down to what is in memory by then. -/

namespace Edit

variable {Response : Type}

/-- The table an edit leaves when it runs alone on `t` and commits. -/
def result (edit : Edit Response) (t : Finmap Entity) : Finmap Entity :=
  (edit.commit (edit.marking (edit.opening (EditStore.ofTable t)))).durable

/-- The book an edit leaves when it runs alone on `b` and commits. -/
def after (edit : Edit Response) (b : Book) : Book := b.setEntities (edit.result b.entities)

/-- Nothing of the edit is durable before its last step, and on a quiet store its last step
is all or nothing. -/
structure Atomic (edit : Edit Response) : Prop where
  opening_durable : ∀ store, (edit.opening store).durable = store.durable
  marking_durable : ∀ store, (edit.marking store).durable = store.durable
  commit_quiet : ∀ t, edit.commit (edit.marking (edit.opening (EditStore.ofTable t)))
    = EditStore.ofTable (edit.result t)
  rollback_quiet : ∀ t, edit.rollback (edit.marking (edit.opening (EditStore.ofTable t)))
    = EditStore.ofTable t

/-- Leaving the only edit settles its object. -/
theorem decrementEditlevel_single {ref : EntityRef} {joined : Finset EntityRef}
    {working durable : Finmap Entity} :
    decrementEditlevel ref { working, durable, scopes := [⟨ref, joined⟩] }
      = { working := settle ref working, durable, scopes := [] } := by
  simp [decrementEditlevel, EditStore.close, Editing, EditStore.write]

/-- Before its last step the change is in memory only, held back by the edit. -/
theorem opening_inPlace_ofTable (ref : EntityRef) (joins : Finmap Entity → Finset EntityRef)
    (change : Finmap Entity → Finmap Entity) (response : Response) (t : Finmap Entity) :
    (inPlace ref joins change response).opening (EditStore.ofTable t)
      = { working := change t, durable := t, scopes := [⟨ref, ∅ ∪ joins t⟩] } := rfl

/-- **An edit in place**, committed. -/
theorem commit_inPlace_ofTable (ref : EntityRef) (joins : Finmap Entity → Finset EntityRef)
    (change : Finmap Entity → Finmap Entity) (response : Response) (t : Finmap Entity) :
    (inPlace ref joins change response).commit
        ((inPlace ref joins change response).opening (EditStore.ofTable t))
      = EditStore.ofTable (settle ref (change t)) := by
  rw [opening_inPlace_ofTable]
  show (decrementEditlevel ref _).flush = _
  rw [decrementEditlevel_single, EditStore.flush_quiet rfl]
  rfl

/-- The table it leaves. -/
theorem result_inPlace (ref : EntityRef) (joins : Finmap Entity → Finset EntityRef)
    (change : Finmap Entity → Finmap Entity) (response : Response) (t : Finmap Entity) :
    (inPlace ref joins change response).result t = settle ref (change t) :=
  congrArg EditStore.durable (commit_inPlace_ofTable ref joins change response t)

/-- The book it leaves. -/
theorem after_inPlace (ref : EntityRef) (joins : Finmap Entity → Finset EntityRef)
    (change : Finmap Entity → Finmap Entity) (response : Response) (b : Book) :
    (inPlace ref joins change response).after b
      = b.setEntities (settle ref (change b.entities)) := by
  rw [after, result_inPlace]

/-- An edit in place is all or nothing. -/
theorem inPlace_atomic (ref : EntityRef) (joins : Finmap Entity → Finset EntityRef)
    (change : Finmap Entity → Finmap Entity) (response : Response) :
    (inPlace ref joins change response).Atomic where
  opening_durable store := by simp [inPlace]
  marking_durable _ := rfl
  commit_quiet t := by
    rw [result_inPlace]
    exact commit_inPlace_ofTable ref joins change response t
  rollback_quiet t := by
    -- A rollback leaves the edit as the commit does, but takes memory from the file.
    show (decrementEditlevel ref
      ((inPlace ref joins change response).opening (EditStore.ofTable t))).revert = _
    rw [opening_inPlace_ofTable, decrementEditlevel_single, EditStore.revert_quiet rfl]
    rfl

/-- **The destruction of an object**, committed: settling is what removes it. -/
theorem commit_destroy_ofTable (ref : EntityRef) (change : Finmap Entity → Finmap Entity)
    (t : Finmap Entity) :
    (destroy ref change).commit ((destroy ref change).marking
        ((destroy ref change).opening (EditStore.ofTable t)))
      = EditStore.ofTable (settle ref (change t)) := by
  show (decrementEditlevel ref
    { working := change t, durable := t, scopes := [⟨ref, ∅⟩] }).flush = _
  rw [decrementEditlevel_single, EditStore.flush_quiet rfl]
  rfl

/-- The table it leaves. -/
theorem result_destroy (ref : EntityRef) (change : Finmap Entity → Finmap Entity)
    (t : Finmap Entity) : (destroy ref change).result t = settle ref (change t) :=
  congrArg EditStore.durable (commit_destroy_ofTable ref change t)

/-- The book it leaves. -/
theorem after_destroy (ref : EntityRef) (change : Finmap Entity → Finmap Entity) (b : Book) :
    (destroy ref change).after b = b.setEntities (settle ref (change b.entities)) := by
  rw [after, result_destroy]

/-- A destruction is all or nothing. -/
theorem destroy_atomic (ref : EntityRef) (change : Finmap Entity → Finmap Entity) :
    (destroy ref change).Atomic where
  opening_durable _ := rfl
  marking_durable _ := rfl
  commit_quiet t := by
    rw [result_destroy]
    exact commit_destroy_ofTable ref change t
  rollback_quiet t := by
    show (decrementEditlevel ref
      { working := change t, durable := t, scopes := [⟨ref, ∅⟩] }).revert = _
    rw [decrementEditlevel_single, EditStore.revert_quiet rfl]
    rfl

variable [Engine]

/-- A price is added within an edit of its own. -/
theorem close_opening_price (guid : Guid) (p : Price) (t : Finmap Entity) :
    ((price guid p).opening (EditStore.ofTable t)).close (.price guid)
      = { working := t.insert (.price guid) p, durable := t, scopes := [] } := by
  simp [price, EditStore.close, EditStore.write, EditStore.beginEdit, EditStore.ofTable]

/-- **A price**, committed: the price database keeps it, or the one that outranks it. -/
theorem commit_price_ofTable (guid : Guid) (p : Price) (t : Finmap Entity) :
    (price guid p).commit ((price guid p).marking ((price guid p).opening (EditStore.ofTable t)))
      = EditStore.ofTable (gncPricedbAddPrice guid (t.insert (.price guid) p)) := by
  show (((_ : EditStore Entity).close (.price guid)).write (gncPricedbAddPrice guid)).flush = _
  erw [close_opening_price]
  rw [EditStore.flush_quiet rfl]
  rfl

/-- The table it leaves. -/
theorem result_price (guid : Guid) (p : Price) (t : Finmap Entity) :
    (price guid p).result t = gncPricedbAddPrice guid (t.insert (.price guid) p) :=
  congrArg EditStore.durable (commit_price_ofTable guid p t)

/-- The book it leaves. -/
theorem after_price (guid : Guid) (p : Price) (b : Book) :
    (price guid p).after b
      = b.setEntities (gncPricedbAddPrice guid (b.entities.insert (.price guid) p)) := by
  rw [after, result_price]

/-- Adding a price is all or nothing. -/
theorem price_atomic (guid : Guid) (p : Price) : (price guid p).Atomic where
  opening_durable _ := rfl
  marking_durable _ := rfl
  commit_quiet t := by
    rw [result_price]
    exact commit_price_ofTable guid p t
  rollback_quiet t := by
    show (((price guid p).opening (EditStore.ofTable t)).close (.price guid)).revert = _
    rw [close_opening_price, EditStore.revert_quiet rfl]
    rfl

/-- Whatever the kind of the edit. -/
theorem OfKind.atomic {edit : Edit Response} (h : edit.OfKind) : edit.Atomic := by
  cases h with
  | inPlace ref joins change response => exact inPlace_atomic _ _ _ _
  | destroy ref change => exact destroy_atomic _ _
  | price guid p => exact price_atomic _ _

end Edit

/-! ### Planned edits

What is known of a request whose plan was made, RPC by RPC. The checks appear in the order in
which the handler makes them. -/

section Checks

variable {α β : Type}

/-- A check that passed. -/
theorem check_ok {v : Except ShimError α} {a : α} (h : check v = .ok a) : v = .ok a := by
  cases v with
  | error e => cases h
  | ok a' =>
    cases h
    rfl

/-- A validation step of a plan that succeeded. -/
theorem check_bind_ok {v : Except ShimError α} {f : α → Except Exn β} {b : β}
    (h : (check v >>= f) = .ok b) : ∃ a, v = .ok a ∧ f a = .ok b := by
  cases v with
  | error e => cases h
  | ok a => exact ⟨a, rfl, h⟩

end Checks

variable [Engine]

section Plans

variable {fate : Fate} {book : Book}

/-- The parent, the type and the commodity were found. -/
theorem plan_createAccount_ok {request : Shim.CreateAccountRequest} {edit : Edit Shim.Account}
    (h : (Mutation.createAccount request).plan fate book = .ok edit) :
    ∃ parent type commodity,
      findAccount book (request.account.parentGuid.getD "") "account.parent_guid" = .ok parent ∧
      accountTypeFromProto request.account.type "account.type" = .ok type ∧
      findCommodityField book request.account.commodity "account.commodity" = .ok commodity ∧
      edit = createAccountEdit (fate.newGuid 0) book request.account type commodity parent := by
  unfold Mutation.plan at h
  obtain ⟨parent, hparent, h⟩ := check_bind_ok h
  obtain ⟨type, htype, h⟩ := check_bind_ok h
  obtain ⟨commodity, hcommodity, h⟩ := check_bind_ok h
  exact ⟨parent, type, commodity, hparent, htype, hcommodity, (Except.ok.inj h).symm⟩

/-- The account is not the root, and its new parent does not lie below it. -/
theorem plan_updateAccount_ok {request : Shim.UpdateAccountRequest} {edit : Edit Shim.Account}
    (h : (Mutation.updateAccount request).plan fate book = .ok edit) :
    ∃ account type commodity parent,
      findAccount book request.account.guid "account.guid" = .ok account ∧
      account ≠ book.rootAccount ∧
      accountTypeFromProto request.account.type "account.type" = .ok type ∧
      findCommodityField book request.account.commodity "account.commodity" = .ok commodity ∧
      findAccount book (request.account.parentGuid.getD "") "account.parent_guid" = .ok parent ∧
      noCycle book account parent "account.parent_guid" = .ok () ∧
      edit = updateAccountEdit account book request.account type commodity parent := by
  unfold Mutation.plan at h
  obtain ⟨account, haccount, h⟩ := check_bind_ok h
  obtain ⟨_, hroot, h⟩ := check_bind_ok h
  obtain ⟨type, htype, h⟩ := check_bind_ok h
  obtain ⟨commodity, hcommodity, h⟩ := check_bind_ok h
  obtain ⟨_, -, h⟩ := check_bind_ok h
  obtain ⟨parent, hparent, h⟩ := check_bind_ok h
  obtain ⟨_, hcycle, h⟩ := except_bind_ok h
  have hne : account ≠ book.rootAccount := by
    intro heq
    rw [checkIsNotRoot, if_pos heq] at hroot
    cases hroot
  exact ⟨account, type, commodity, parent, haccount, hne, htype, hcommodity, hparent, hcycle,
    (Except.ok.inj h).symm⟩

/-- The account is not the root, and has neither splits nor children. -/
theorem plan_deleteAccount_ok {request : Shim.DeleteAccountRequest} {edit : Edit Unit}
    (h : (Mutation.deleteAccount request).plan fate book = .ok edit) :
    ∃ account, findAccount book request.guid "guid" = .ok account ∧
      account ≠ book.rootAccount ∧
      ¬(book.accountSplits account ≠ 0 ∨ book.hasChildren account) ∧
      edit = deleteAccountEdit account := by
  unfold Mutation.plan at h
  obtain ⟨account, haccount, h⟩ := check_bind_ok h
  obtain ⟨_, hroot, h⟩ := check_bind_ok h
  obtain ⟨_, hempty, h⟩ := check_bind_ok h
  have hne : account ≠ book.rootAccount := by
    intro heq
    rw [checkIsNotRoot, if_pos heq] at hroot
    cases hroot
  exact ⟨account, haccount, hne, ensure_ok hempty, (Except.ok.inj h).symm⟩

/-- The account was found, and the date was given. -/
theorem plan_setReconcileInfo_ok {request : Shim.SetReconcileInfoRequest}
    {edit : Edit Shim.ReconcileInfo}
    (h : (Mutation.setReconcileInfo request).plan fate book = .ok edit) :
    ∃ account lastDate date, findAccount book request.accountGuid "account_guid" = .ok account ∧
      request.lastDate = some lastDate ∧ dateFromProto lastDate "last_date" = .ok date ∧
      edit = setReconcileInfoEdit account book date := by
  unfold Mutation.plan at h
  obtain ⟨account, haccount, h⟩ := check_bind_ok h
  obtain ⟨lastDate, hlast, h⟩ := check_bind_ok h
  obtain ⟨date, hdate, h⟩ := check_bind_ok h
  refine ⟨account, lastDate, date, haccount, ?_, hdate, (Except.ok.inj h).symm⟩
  cases hr : request.lastDate with
  | none => rw [hr] at hlast; cases hlast
  | some d => rw [hr] at hlast; cases hlast; rfl

/-- The transaction was planned as a new one. -/
theorem plan_postTransaction_ok {request : Shim.PostTransactionRequest}
    {edit : Edit Shim.Transaction}
    (h : (Mutation.postTransaction request).plan fate book = .ok edit) :
    ∃ plan, planTransaction fate.gncTime book request.transaction none = .ok plan ∧
      edit = postTransactionEdit fate.newGuid book plan := by
  unfold Mutation.plan at h
  obtain ⟨plan, hplan, h⟩ := check_bind_ok h
  exact ⟨plan, hplan, (Except.ok.inj h).symm⟩

/-- The transaction was found, and planned against what it is. -/
theorem plan_updateTransaction_ok {request : Shim.UpdateTransactionRequest}
    {edit : Edit Shim.Transaction}
    (h : (Mutation.updateTransaction request).plan fate book = .ok edit) :
    ∃ transaction plan,
      findTransaction book request.transaction.guid "transaction.guid" = .ok transaction ∧
      planTransaction fate.gncTime book request.transaction (book.transaction transaction)
        = .ok plan ∧
      edit = updateTransactionEdit fate.newGuid transaction book plan := by
  unfold Mutation.plan at h
  obtain ⟨transaction, htransaction, h⟩ := check_bind_ok h
  obtain ⟨plan, hplan, h⟩ := check_bind_ok h
  exact ⟨transaction, plan, htransaction, hplan, (Except.ok.inj h).symm⟩

/-- The transaction was found. -/
theorem plan_deleteTransaction_ok {request : Shim.DeleteTransactionRequest} {edit : Edit Unit}
    (h : (Mutation.deleteTransaction request).plan fate book = .ok edit) :
    ∃ transaction, findTransaction book request.guid "guid" = .ok transaction ∧
      edit = deleteTransactionEdit transaction := by
  unfold Mutation.plan at h
  obtain ⟨transaction, htransaction, h⟩ := check_bind_ok h
  exact ⟨transaction, htransaction, (Except.ok.inj h).symm⟩

/-- Both commodities were found, the second is a currency, and date and value were given. -/
theorem plan_addPrice_ok {request : Shim.AddPriceRequest} {edit : Edit Shim.Price}
    (h : (Mutation.addPrice request).plan fate book = .ok edit) :
    ∃ commodity currency wireDate date value,
      findCommodity book request.price.commodity "price.commodity" = .ok commodity ∧
      findCommodity book request.price.currency "price.currency" = .ok currency ∧
      gncCommodityIsCurrency currency = true ∧ request.price.date = some wireDate ∧
      dateFromProto wireDate "price.date" = .ok date ∧
      numericFromProto request.price.value "price.value" = .ok value ∧
      edit = Edit.price (fate.newGuid 0)
        (newPrice commodity currency date value request.price.source) := by
  unfold Mutation.plan at h
  obtain ⟨commodity, hcommodity, h⟩ := check_bind_ok h
  obtain ⟨currency, hcurrency, h⟩ := check_bind_ok h
  obtain ⟨_, his, h⟩ := check_bind_ok h
  obtain ⟨wireDate, hwire, h⟩ := check_bind_ok h
  obtain ⟨date, hdate, h⟩ := check_bind_ok h
  obtain ⟨value, hvalue, h⟩ := check_bind_ok h
  refine ⟨commodity, currency, wireDate, date, value, hcommodity, hcurrency, ensure_ok his, ?_,
    hdate, hvalue, (Except.ok.inj h).symm⟩
  cases hr : request.price.date with
  | none => rw [hr] at hwire; cases hwire
  | some d => rw [hr] at hwire; cases hwire; rfl

/-- Every planned edit is of one of the three kinds. -/
theorem plan_kind {m : Mutation} {edit : Edit m.Response} (h : m.plan fate book = .ok edit) :
    edit.OfKind := by
  cases m with
  | createAccount request =>
    obtain ⟨_, _, _, -, -, -, rfl⟩ := plan_createAccount_ok h
    unfold createAccountEdit
    exact .inPlace _ _ _ _
  | updateAccount request =>
    obtain ⟨_, _, _, _, -, -, -, -, -, -, rfl⟩ := plan_updateAccount_ok h
    unfold updateAccountEdit
    exact .inPlace _ _ _ _
  | deleteAccount request =>
    obtain ⟨_, -, -, -, rfl⟩ := plan_deleteAccount_ok h
    exact .destroy _ _
  | setReconcileInfo request =>
    obtain ⟨_, _, _, -, -, -, rfl⟩ := plan_setReconcileInfo_ok h
    unfold setReconcileInfoEdit
    exact .inPlace _ _ _ _
  | postTransaction request =>
    obtain ⟨_, -, rfl⟩ := plan_postTransaction_ok h
    unfold postTransactionEdit
    exact .inPlace _ _ _ _
  | updateTransaction request =>
    obtain ⟨_, _, -, -, rfl⟩ := plan_updateTransaction_ok h
    unfold updateTransactionEdit
    exact .inPlace _ _ _ _
  | deleteTransaction request =>
    obtain ⟨_, -, rfl⟩ := plan_deleteTransaction_ok h
    exact .destroy _ _
  | addPrice request =>
    obtain ⟨_, _, _, _, _, -, -, -, -, -, -, rfl⟩ := plan_addPrice_ok h
    exact .price _ _

/-- **Every planned edit is atomic.** -/
theorem plan_atomic {m : Mutation} {edit : Edit m.Response} (h : m.plan fate book = .ok edit) :
    edit.Atomic := (plan_kind h).atomic

end Plans

/-! ### The effect of a mutation -/

/-- A plan is made before the last step, and does not know how that will go. -/
theorem Mutation.plan_finalStep (m : Mutation) (fate : Fate) (final : FinalStep) (b : Book) :
    m.plan { fate with finalStep := final } b = m.plan fate b := by
  cases m <;> rfl

variable [Wire]

/-- A serving daemon whose store is just the given book. -/
def World.alone (b : Book) : World where
  config := { bookUri := "", readOnly := false }
  journal := Journal.empty
  rootAccount := b.rootAccount
  commodities := b.commodities
  store := EditStore.ofTable b.entities
  session := some { error := none, checked := true, reconciled := true }

/-- What a mutation does to a book: the database after its handler ran alone on it. -/
def Mutation.effect (m : Mutation) (fate : Fate) (b : Book) : Book :=
  (worldAfter (m.apply { fate with finalStep := .commits } (fun _ => pure ())
    (World.alone b))).durableBook

/-- The effect of a mutation that passes its checks is the result of its edit. -/
theorem Mutation.effect_of_plan {m : Mutation} {fate : Fate} {b : Book} {edit : Edit m.Response}
    (hpre : m.precheck = .ok ()) (h : m.plan fate b = .ok edit) :
    m.effect fate b = edit.after b := by
  have hvalid : m.validated { fate with finalStep := .commits } (World.alone b) = .ok edit := by
    rw [validated, hpre]
    exact (m.plan_finalStep fate .commits b).trans h
  rw [effect, apply_eq, hvalid]
  show World.durableBook ((((World.alone b).onStore edit.opening).onStore edit.marking).onStore
    edit.commit) = _
  show Book.mk b.rootAccount b.commodities
    (edit.commit (edit.marking (edit.opening (EditStore.ofTable b.entities)))).durable = _
  rw [(plan_atomic h).commit_quiet]
  rfl

/-! ### The worlds of a call, on a quiet store -/

section Worlds

variable {m : Mutation} {fate : Fate} {w : World} {edit : Edit m.Response}

/-- What a mutation that passes validation has been checked for. -/
theorem Mutation.validated_ok (h : m.validated fate w = .ok edit) :
    m.precheck = .ok () ∧ w.session.isSome = true ∧ m.plan fate w.book = .ok edit := by
  unfold validated at h
  obtain ⟨_, hpre, h⟩ := check_bind_ok h
  obtain ⟨book, hbook, h⟩ := except_bind_ok h
  unfold openBookCheck at hbook
  split at hbook
  · cases hbook
  · next hs =>
    obtain rfl := Except.ok.inj hbook
    exact ⟨hpre, by cases hw : w.session <;> simp_all, h⟩

/-- A validated edit is all or nothing. -/
theorem Mutation.validated_atomic (h : m.validated fate w = .ok edit) : edit.Atomic :=
  plan_atomic (validated_ok h).2.2

/-- The effect of a mutation is that of its edit. -/
theorem Mutation.effect_of_validated (h : m.validated fate w = .ok edit) :
    m.effect fate w.book = edit.after w.book :=
  effect_of_plan (validated_ok h).1 (validated_ok h).2.2

omit [Engine] in
/-- Until the last step, the database has the old book. -/
theorem Edit.pended_durableBook (hatomic : edit.Atomic) :
    (edit.pended fate w).durableBook = w.durableBook := by
  show Book.mk w.rootAccount w.commodities (edit.opening w.store).durable = _
  rw [hatomic.opening_durable]
  rfl

omit [Engine] in
/-- An accepted last step makes exactly the edit's result durable. -/
theorem Edit.finished_store (hatomic : edit.Atomic) (hquiet : w.store.Quiet)
    (hfinal : ∀ error, fate.finalStep ≠ .declines error) :
    (edit.finished fate w).store = EditStore.ofTable (edit.after w.book).entities := by
  have hstore : (edit.finished fate w).store
      = edit.commit (edit.marking (edit.opening w.store)) := by
    unfold Edit.finished
    cases hf : fate.finalStep with
    | declines error => exact absurd hf (hfinal error)
    | commits => rfl
    | throwsBefore what => rfl
    | throwsAfter what => rfl
  have hbook : w.book.entities = w.store.durable := hquiet.working_eq
  rw [hstore, hquiet.eq_ofTable, hatomic.commit_quiet, after, Book.setEntities, hbook]

omit [Engine] in
/-- The file after the last step, unless the engine declined it. -/
theorem Edit.finished_durableBook (hatomic : edit.Atomic) (hquiet : w.store.Quiet)
    (hfinal : ∀ error, fate.finalStep ≠ .declines error) :
    (edit.finished fate w).durableBook = edit.after w.book := by
  have hroot : (edit.finished fate w).rootAccount = w.rootAccount := by
    unfold Edit.finished
    split <;> rfl
  have hcommodities : (edit.finished fate w).commodities = w.commodities := by
    unfold Edit.finished
    split <;> rfl
  rw [World.durableBook, finished_store hatomic hquiet hfinal, hroot, hcommodities]
  rfl

omit [Engine] in
/-- So is the memory. -/
theorem Edit.finished_book (hatomic : edit.Atomic) (hquiet : w.store.Quiet)
    (hfinal : ∀ error, fate.finalStep ≠ .declines error) :
    (edit.finished fate w).book = edit.after w.book := by
  rw [← finished_durableBook hatomic hquiet hfinal, World.book, World.durableBook,
    finished_store hatomic hquiet hfinal]
  rfl

/-- A call that gets to an accepted last step leaves the book its edit makes, whether or not
it still records its success. -/
theorem Mutation.book_of_commits (hreach : m.Reaches fate w edit) (hquiet : w.store.Quiet)
    (hcommits : fate.finalStep = .commits) :
    (worldAfter (m.run fate w)).book = edit.after w.book ∧
      ∀ response w', m.run fate w = .ok response w' → response = edit.response := by
  have hbook : (edit.finished fate w).book = edit.after w.book :=
    Edit.finished_book (validated_atomic hreach.valid) hquiet
      (FinalStep.ne_declines_of_commits hcommits)
  rcases run_of_returns hreach (FinalStep.returns_of_commits hcommits) with
    ⟨-, hrun⟩ | ⟨-, -, e, -, hrun⟩ | ⟨-, -, j, -, hrun | hrun⟩ <;> rw [hrun]
  · exact ⟨hbook, fun _ _ h => by cases h⟩
  · exact ⟨hbook, fun _ _ h => by cases h⟩
  · exact ⟨hbook, fun _ _ h => by cases h⟩
  · exact ⟨hbook, fun _ _ h => by cases h; rfl⟩

omit [Engine] in
/-- A declined last step leaves the book as it was. -/
theorem Edit.finished_store_of_declines (hatomic : edit.Atomic) (hquiet : w.store.Quiet)
    {error : SessionError} (hfinal : fate.finalStep = .declines error) :
    (edit.finished fate w).store = w.store := by
  have hstore : (edit.finished fate w).store
      = edit.rollback (edit.marking (edit.opening w.store)) := by
    unfold Edit.finished
    rw [hfinal]
    rfl
  rw [hstore, hquiet.eq_ofTable, hatomic.rollback_quiet]

end Worlds

end Daichod
