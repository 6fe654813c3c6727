import Daichod.Reference

/-!
# Daichod.Properties.PendingFault

**A journal failure at step 3a**: `record_pending` throws. The six RPCs that change a live
object have opened an engine edit on it by then and run every setter, and nothing closes the
edit again (`editing_of_pendingFault`). Reads see the change, a later commit of the same
entity is nested and persists nothing of it (`later_commit_not_durable`), and the final save
persists it. The two deletes call `record_pending` first and are safe
(`delete_rolledBack`).

## Proof shape

Of the three kinds of edits (`Edit.OfKind`) two have begun by the time they call `record_pending`
(`Edit.Opens`). Their scope then stays in the store, as nothing in `RunMutation` closes it, and
every later commit of the entity is an inner one (`Edit.OfKind.commit_of_editing`).
-/

namespace Daichod

section PendingFault

variable [Wire] [Engine]

/-- The RPCs that call `record_pending` before they touch the book. -/
def Mutation.Deletes : Mutation → Prop
  | .deleteAccount _ | .deleteTransaction _ => True
  | _ => False

/-- What rolling a failed edit of `ref` back asks of the world it leaves. -/
structure RolledBack (ref : EntityRef) (before after : World) : Prop where
  /-- Reads see the old book. -/
  reads : after.book = before.book
  /-- No engine edit stays open on the entity. -/
  closed : ¬Editing ref after.store
  /-- A later mutation of the entity reaches the database at its own commit. -/
  commits : ∀ (m : Mutation) (fate : Fate) (edit : Edit m.Response), m.Reaches fate after edit →
    edit.ref = ref → fate.finalStep = .commits →
    (edit.finished fate after).store.durable.lookup ref
      = (edit.finished fate after).store.working.lookup ref
  /-- The final save persists nothing of it. -/
  save : ∀ fate, (worldAfter (Session.close fate after)).durableBook
    = (worldAfter (Session.close fate before)).durableBook

/-- The edit is open by the time it calls `record_pending`. -/
def Edit.Opens {Response : Type} (edit : Edit Response) : Prop :=
  ∀ store, Editing edit.ref (edit.opening store)

/-! ### The edit stays open

A scope that nobody closes holds its entity, and what is held is not written to the database. -/

section Kinds

variable {Response : Type} {edit : Edit Response} {store : EditStore Entity}

omit [Wire] in
/-- An edit in progress is closed last, so one begun within it persists nothing of the
entity. -/
theorem Edit.OfKind.commit_of_editing (h : edit.OfKind) (hediting : Editing edit.ref store) :
    (edit.commit (edit.marking (edit.opening store))).durable.lookup edit.ref
      = store.durable.lookup edit.ref := by
  have nested : ∀ (ref : EntityRef) (t : Finmap Entity), Editing ref store →
      (EditStore.flush { store with working := t }).durable.lookup ref
        = store.durable.lookup ref := by
    intro ref t hediting
    obtain ⟨scope, hmem, hkey⟩ := hediting
    refine EditStore.flush_durable_of_held (EditStore.mem_held.mpr ⟨scope, hmem, ?_⟩)
    rw [← hkey]
    exact Finset.mem_insert_self _ _
  cases h with
  | inPlace ref joins change response =>
    have hopen : ((Edit.inPlace ref joins change response).opening store).close ref
        = { store with working := change store.working } := by
      simp [Edit.inPlace, EditStore.close, EditStore.write, EditStore.beginEdit, EditStore.join]
    have hclosed : Editing ref { store with working := change store.working } := hediting
    show (decrementEditlevel ref
      ((Edit.inPlace ref joins change response).opening store)).flush.durable.lookup ref = _
    rw [decrementEditlevel, hopen]
    simp only [hclosed, if_true]
    exact nested ref _ hediting
  | destroy ref change =>
    have hopen : ((Edit.destroy ref change).marking store).close ref
        = { store with working := change store.working } := by
      simp [Edit.destroy, EditStore.close, EditStore.write, EditStore.beginEdit]
    have hclosed : Editing ref { store with working := change store.working } := hediting
    show (decrementEditlevel ref
      ((Edit.destroy ref change).marking store)).flush.durable.lookup ref = _
    rw [decrementEditlevel, hopen]
    simp only [hclosed, if_true]
    exact nested ref _ hediting
  | price guid p =>
    have hopen : ((Edit.price guid p).opening store).close (.price guid)
        = { store with working := store.working.insert (.price guid) p } := by
      simp [Edit.price, EditStore.close, EditStore.write, EditStore.beginEdit]
    show ((((Edit.price guid p).opening store).close (.price guid)).write
      (gncPricedbAddPrice guid)).flush.durable.lookup (.price guid) = _
    rw [hopen]
    exact nested _ _ hediting

end Kinds

omit [Engine] in
omit [Wire] in
/-- An edit in place is open as soon as it has begun. -/
theorem Edit.editing_inPlace {Response : Type} (ref : EntityRef)
    (joins : Finmap Entity → Finset EntityRef) (change : Finmap Entity → Finmap Entity)
    (response : Response) : (Edit.inPlace ref joins change response).Opens :=
  fun store => ⟨⟨ref, ∅ ∪ joins store.working⟩, List.mem_cons_self .., rfl⟩

omit [Wire] in
/-- The six RPCs open their edit before they call `record_pending`. -/
theorem plan_opens {m : Mutation} {fate : Fate} {b : Book} {edit : Edit m.Response}
    (h : m.plan fate b = .ok edit) (hm : ¬m.Deletes) : edit.Opens := by
  cases m with
  | createAccount request =>
    obtain ⟨_, _, _, -, -, -, rfl⟩ := plan_createAccount_ok h
    exact Edit.editing_inPlace _ _ _ _
  | updateAccount request =>
    obtain ⟨_, _, _, _, -, -, -, -, -, -, rfl⟩ := plan_updateAccount_ok h
    exact Edit.editing_inPlace _ _ _ _
  | setReconcileInfo request =>
    obtain ⟨_, _, _, -, -, -, rfl⟩ := plan_setReconcileInfo_ok h
    exact Edit.editing_inPlace _ _ _ _
  | postTransaction request =>
    obtain ⟨_, -, rfl⟩ := plan_postTransaction_ok h
    exact Edit.editing_inPlace _ _ _ _
  | updateTransaction request =>
    obtain ⟨_, _, -, -, rfl⟩ := plan_updateTransaction_ok h
    exact Edit.editing_inPlace _ _ _ _
  | addPrice request =>
    obtain ⟨_, _, _, _, _, -, -, -, -, -, -, rfl⟩ := plan_addPrice_ok h
    exact fun store => ⟨⟨.price _, ∅⟩, List.mem_cons_self .., rfl⟩
  | deleteAccount request => exact absurd trivial hm
  | deleteTransaction request => exact absurd trivial hm

variable {m : Mutation} {fate : Fate} {w : World} {edit : Edit m.Response}

/-- After a failed `record_pending` the entity's edit is still open. -/
theorem editing_of_pendingFault (hm : ¬m.Deletes) (happlies : m.Applies fate w)
    (hvalid : m.validated fate w = .ok edit) (hfault : fate.recordPendingFault ≠ none) :
    Editing edit.ref (worldAfter (m.run fate w)).store := by
  obtain ⟨e, -, hrun⟩ := Mutation.run_of_pendingFault happlies hvalid hfault
  rw [hrun]
  exact plan_opens (Mutation.validated_ok hvalid).2.2 hm w.store

/-- **The next mutation of the entity is lost**: its commit returns, its outcome is recorded,
and the database keeps what it had. -/
theorem later_commit_not_durable {m' : Mutation} {fate' : Fate} {w' : World}
    {edit' : Edit m'.Response} (hediting : Editing edit'.ref w'.store)
    (hreach : m'.Reaches fate' w' edit') (hcommits : fate'.finalStep = .commits) :
    (edit'.finished fate' w').store.durable.lookup edit'.ref
      = w'.store.durable.lookup edit'.ref := by
  have hkind := plan_kind (Mutation.validated_ok hreach.valid).2.2
  have hstore : (edit'.finished fate' w').store
      = edit'.commit (edit'.marking (edit'.opening w'.store)) := by
    unfold Edit.finished
    rw [hcommits]
    rfl
  rw [hstore]
  exact hkind.commit_of_editing hediting

/-- **Step 3a is never safe** in the six RPCs: whatever the request and the book, a failed
`record_pending` is not rolled back. -/
theorem not_rolledBack_of_pendingFault (hm : ¬m.Deletes) (happlies : m.Applies fate w)
    (hvalid : m.validated fate w = .ok edit) (hfault : fate.recordPendingFault ≠ none) :
    ¬RolledBack edit.ref w (worldAfter (m.run fate w)) :=
  fun h => h.closed (editing_of_pendingFault hm happlies hvalid hfault)

/-- The sibling path: a delete has not touched the book when `record_pending` throws. -/
theorem delete_rolledBack (hm : m.Deletes) (hquiet : w.store.Quiet) (happlies : m.Applies fate w)
    (hvalid : m.validated fate w = .ok edit) (hfault : fate.recordPendingFault ≠ none) :
    RolledBack edit.ref w (worldAfter (m.run fate w)) := by
  obtain ⟨e, -, hrun⟩ := Mutation.run_of_pendingFault happlies hvalid hfault
  have hopening : edit.opening = id := by
    cases m with
    | deleteAccount request =>
      obtain ⟨_, -, -, -, rfl⟩ := plan_deleteAccount_ok (Mutation.validated_ok hvalid).2.2
      rfl
    | deleteTransaction request =>
      obtain ⟨_, -, rfl⟩ := plan_deleteTransaction_ok (Mutation.validated_ok hvalid).2.2
      rfl
    | _ => exact hm.elim
  have hopened : edit.opened fate w = m.journaled fate w := by
    unfold Edit.opened
    rw [hopening]
    rfl
  rw [hrun, worldAfter_error, hopened]
  have hquiet' : (m.journaled fate w).store.Quiet := hquiet
  refine { reads := rfl, closed := ?_, commits := ?_, save := ?_ }
  · intro hediting
    obtain ⟨scope, hscope, _⟩ := hediting
    rw [hquiet'.scopes_nil] at hscope
    cases hscope
  · intro m' fate' edit' hreach _ hcommits
    rw [Edit.finished_store (Mutation.validated_atomic hreach.valid) hquiet'
      (FinalStep.ne_declines_of_commits hcommits)]
    rfl
  · intro closeFate
    obtain ⟨s, hs⟩ := Session.close_quiet hquiet closeFate
    obtain ⟨s', hs'⟩ := Session.close_quiet hquiet' closeFate
    rw [hs, hs']
    rfl

end PendingFault

section Post

open Reference

attribute [local instance] Reference.engine Reference.wire

/-- Posting a transaction; the disk is full at step 3a. -/
def postUnpended : Daemon :=
  started.step (.mutate (post '1' 100) { calm 16 with recordPendingFault := some diskFull })

/-- The failed transaction is read, and in the database once the book is closed. -/
theorem failed_post_saved :
    started.world.book.transactions.card = 0 ∧ postUnpended.world.book.transactions.card = 1 ∧
      (postUnpended.step (.closeBook ⟨none⟩)).world.durableBook.transactions.card = 1 ∧
      ¬RolledBack (.transaction 16) started.world postUnpended.world := by
  have hnone : started.world.book.transactions.card = 0 := by decide +kernel
  have hone : postUnpended.world.book.transactions.card = 1 := by decide +kernel
  refine ⟨hnone, hone, by decide +kernel, fun h => ?_⟩
  rw [h.reads, hnone] at hone
  cases hone

theorem not_rolledBack_post :
    ∃ edit : Edit Shim.Transaction,
      (post '1' 100).validated { calm 16 with recordPendingFault := some diskFull } started.world
        = .ok edit ∧ ¬RolledBack edit.ref started.world
          (worldAfter ((post '1' 100).run { calm 16 with recordPendingFault := some diskFull }
            started.world)) := by
  have happlies : (post '1' 100).Applies { calm 16 with recordPendingFault := some diskFull }
      started.world :=
    ⟨by decide +kernel, rfl, by decide, rfl, by decide +kernel⟩
  have hok : ((post '1' 100).validated { calm 16 with recordPendingFault := some diskFull }
      started.world).isOk = true := by decide +kernel
  cases hvalid : (post '1' 100).validated { calm 16 with recordPendingFault := some diskFull }
      started.world with
  | error e => rw [hvalid] at hok; cases hok
  | ok edit =>
    exact ⟨edit, rfl, not_rolledBack_of_pendingFault id happlies hvalid (by simp)⟩

end Post

end Daichod
