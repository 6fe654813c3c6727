import Daichod.Footprint
import Daichod.Journal.Verdict

/-!
# Daichod.Journal.LoadedVerdict

How far `WasApplied` can be trusted on the book that a new process has loaded, and that others
may have changed meanwhile. It looks at one object (`Mutation.Judged`), for a date of
reconciliation also at the splits, so nothing else in the book matters
(`wasApplied_congr`), and the order of a list of splits does not matter either, except where
two messages of a transaction are compared: the verdict on an update.

* An update that is not in the book is never taken for one that is, whatever the order of the
  list, unless it changes nothing but that order (`wasApplied_unapplied`).
* An update that is in the book is recognized if the transaction is listed in the order of the
  record (`ListedAsRecorded`, `wasApplied_applied`).
-/

namespace Daichod

variable [Engine]

/-! ### Messages of relisted transactions

A message shows the list of splits in its order, and determines it. -/

section Messages

variable {t r t' : Transaction} {g : Guid} {plan : TransactionPlan}

/-- Transactions at rest that print alike list the same splits in the same order. -/
theorem splits_eq_of_message (hr : r.AtRest) (ht : t.AtRest)
    (h : transactionToProto g r = transactionToProto g t) : r.splits = t.splits := by
  have hmap := congrArg Shim.Transaction.splits h
  simp only [transactionToProto, hr.liveSplits_eq, ht.liveSplits_eq] at hmap
  exact splits_eq_of_toProto hr.splits ht.splits hmap

/-- What prints like the planned transaction is the planned transaction already. -/
theorem Transaction.Relisted.of_message_eq (h : t.Relisted r) (ht : t.AtRest) (ht' : t'.AtRest)
    (hvalid : plan.postDate.valid = true) (hheader : SameHeader (plan.setHeader t) t')
    (hmessage : transactionToProto g r = transactionToProto g t') : t.Relisted t' := by
  have hplanned : SameHeader (plan.setHeader r) t' :=
    ⟨hheader.currency, hheader.postDate, hheader.enterTime, hheader.num, hheader.description,
      hheader.readOnly.trans h.header.readOnly.symm,
      hheader.destroying.trans h.header.destroying.symm⟩
  have hself : plan.setHeader r = r := setHeader_eq_self hvalid hplanned hmessage
  rw [hself] at hplanned
  refine ⟨h.header.trans hplanned, ?_⟩
  rw [← splits_eq_of_message (h.atRest ht) ht' hmessage]
  exact h.splits

end Messages

/-- The same message, its splits in any order. -/
structure Shim.Transaction.Relisted (m m' : Shim.Transaction) : Prop where
  header : { m' with splits := m.splits } = m
  splits : m'.splits.Perm m.splits

/-- The message of a relisted transaction is the message relisted. -/
theorem Transaction.Relisted.message {t r : Transaction} (h : t.Relisted r) (g : Guid) :
    (transactionToProto g t).Relisted (transactionToProto g r) := by
  obtain ⟨hc, hp, he, hn, hd, -, -⟩ := h.header
  refine ⟨?_, h.liveSplits.map _⟩
  simp only [transactionToProto, hc, hp, he, hn, hd]

/-! ### What the verdict looks at

One object of the book, in its canonical message. Whatever leaves this object alone leaves the
verdict alone. -/

/-- The objects that the verdict on a mutation looks at. -/
def Mutation.Judged (fate : Fate) (ref : EntityRef) : Mutation → Prop
  | .createAccount _ => ref = .account (fate.newGuid 0)
  | .updateAccount request => Named request.account.guid (ref = .account ·)
  | .deleteAccount request => Named request.guid (ref = .account ·)
  | .setReconcileInfo request =>
    Named request.accountGuid (ref = .account ·) ∨ ∃ g, ref = .transaction g
  | .postTransaction _ => ref = .transaction (fate.newGuid 0)
  | .updateTransaction request => Named request.transaction.guid (ref = .transaction ·)
  | .deleteTransaction request => Named request.guid (ref = .transaction ·)
  | .addPrice _ => ref = .price (fate.newGuid 0)

variable [Wire] {b b' : Book} {fate : Fate}

/-- A verdict that compares messages, on two books that show the same one. -/
theorem entityMatches_congr {α β : Type} {codec : Codec Bytes α} {entry : Journal.PendingEntry}
    {response : α} {guid : α → String} {find find' : Guid → Option β}
    {toProto toProto' : Guid → β → α} {g : Guid}
    (h : entry.pendingResponse = codec.serialize response)
    (hg : guid response = Engine.guidToString g)
    (hshown : (find' g).map (toProto' g) = (find g).map (toProto g)) :
    entityMatches codec guid find' toProto' entry = entityMatches codec guid find toProto entry := by
  have hverdict : ∀ (f : Guid → Option β) (p : Guid → β → α),
      entityMatches codec guid f p entry
        = ((f g).map (p g)).map fun shown => codec.serialize shown == entry.pendingResponse := by
    intro f p
    rw [entityMatches, h, codec.parse_serialize]
    simp only [hg, parseGuid_guidToString]
    cases f g <;> rfl
  rw [hverdict, hverdict, hshown]

/-- The mutation is not an update of a transaction, whose verdict compares two lists. -/
def Mutation.ComparesNoList : Mutation → Prop
  | .updateTransaction _ => False
  | _ => True

/-- **The verdict depends on what it looks at**, and but for updates of transactions not on the
order of a list of splits. -/
theorem wasApplied_congr {m : Mutation} {edit : Edit m.Response} {b₀ : Book}
    (h : m.plan fate b₀ = .ok edit) (hno : m.ComparesNoList)
    (hsame : SameOn (m.Judged fate) b b') :
    wasApplied b' (m.entry edit.response) = wasApplied b (m.entry edit.response) := by
  have judged : ∀ {text : String} {g : Guid} {ref : Guid → EntityRef},
      Engine.stringToGuid (cStr text) = some g → Named text (ref g = ref ·) := fun hg => ⟨_, hg, rfl⟩
  have account : ∀ {g : Guid}, m.Judged fate (.account g) → b'.account g = b.account g :=
    fun hg => hsame.objects _ hg
  have transaction : ∀ {g : Guid}, m.Judged fate (.transaction g) →
      (b'.transaction g).isSome = (b.transaction g).isSome :=
    fun hg => (hsame.objects _ hg).isSome_eq
  cases m with
  | createAccount request =>
    obtain ⟨parent, type, commodity, -, -, -, rfl⟩ := plan_createAccount_ok h
    rw [wasApplied_createAccount b' rfl, wasApplied_createAccount b rfl,
      createdExists_of_entry _ rfl, createdExists_of_entry _ rfl]
    show some (accountExists b' (Engine.guidToString (fate.newGuid 0)))
      = some (accountExists b (Engine.guidToString (fate.newGuid 0)))
    rw [accountExists_guidToString, accountExists_guidToString, account rfl]
  | updateAccount request =>
    obtain ⟨g, type, commodity, parent, hfind, -, -, -, -, -, rfl⟩ := plan_updateAccount_ok h
    rw [wasApplied_updateAccount b' rfl, wasApplied_updateAccount b rfl]
    refine entityMatches_congr (g := g) rfl rfl ?_
    rw [account (judged (findAccount_ok hfind).1)]
  | deleteAccount request =>
    obtain ⟨g, hfind, -, -, rfl⟩ := plan_deleteAccount_ok h
    rw [wasApplied_deleteAccount b' rfl, wasApplied_deleteAccount b rfl,
      deletedGone_of_entry _ _ rfl, deletedGone_of_entry _ _ rfl, accountExists_of_find hfind,
      accountExists_of_find hfind, account (judged (findAccount_ok hfind).1)]
  | setReconcileInfo request =>
    obtain ⟨g, lastDate, date, hfind, -, -, rfl⟩ := plan_setReconcileInfo_ok h
    rw [wasApplied_setReconcileInfo b' rfl, wasApplied_setReconcileInfo b rfl]
    -- The balance sums over a set of splits, so their order does not matter.
    have hsplits : b'.accountSplits g = b.accountSplits g :=
      Book.accountSplits_congr (fun g' => hsame.objects (.transaction g') (Or.inr ⟨g', rfl⟩)) g
    refine entityMatches_congr (g := g) rfl rfl ?_
    have hshown : reconcileInfoToProto b' g = reconcileInfoToProto b g := by
      funext account
      simp only [reconcileInfoToProto, hsplits]
    rw [account (Or.inl (judged (findAccount_ok hfind).1)), hshown]
  | postTransaction request =>
    obtain ⟨plan, -, rfl⟩ := plan_postTransaction_ok h
    rw [wasApplied_postTransaction b' rfl, wasApplied_postTransaction b rfl,
      createdExists_of_entry _ rfl, createdExists_of_entry _ rfl]
    show some (transactionExists b' (Engine.guidToString (fate.newGuid 0)))
      = some (transactionExists b (Engine.guidToString (fate.newGuid 0)))
    rw [transactionExists_guidToString, transactionExists_guidToString, transaction rfl]
  | updateTransaction request => exact hno.elim
  | deleteTransaction request =>
    obtain ⟨g, hfind, rfl⟩ := plan_deleteTransaction_ok h
    rw [wasApplied_deleteTransaction b' rfl, wasApplied_deleteTransaction b rfl,
      deletedGone_of_entry _ _ rfl, deletedGone_of_entry _ _ rfl, transactionExists_of_find hfind,
      transactionExists_of_find hfind, transaction (judged (findTransaction_ok hfind).1)]
  | addPrice request =>
    obtain ⟨_, _, _, _, _, -, -, -, -, -, -, rfl⟩ := plan_addPrice_ok h
    have hprice : b'.price (fate.newGuid 0) = b.price (fate.newGuid 0) :=
      hsame.objects (.price (fate.newGuid 0)) rfl
    rw [wasApplied_addPrice b' rfl, wasApplied_addPrice b rfl, createdExists_of_entry _ rfl,
      createdExists_of_entry _ rfl]
    show (parseGuid (Engine.guidToString (fate.newGuid 0))).map _
      = (parseGuid (Engine.guidToString (fate.newGuid 0))).map _
    rw [parseGuid_guidToString, Option.map_some, Option.map_some, hprice]

/-! ### The verdict on the two books, as they are loaded -/

/-- Should the record be of an update, and the transaction it is about have all that the record
says, in whatever order of its splits, then its splits are listed in the order of the record. -/
def ListedAsRecorded (b : Book) (entry : Journal.PendingEntry) : Prop :=
  entry.rpcName = "daicho.shim.v1.TransactionService/UpdateTransaction" →
    ∀ message g t, Wire.transaction.parse entry.pendingResponse = some message →
      parseGuid message.guid = some g → b.transaction g = some t →
      message.Relisted (transactionToProto g t) → transactionToProto g t = message

omit [Wire] in
/-- What an update would commit, and the message it puts on record. -/
theorem plan_updateTransaction_recorded {request : Shim.UpdateTransactionRequest}
    {edit : Edit Shim.Transaction} (hrest : AtRest b.entities)
    (h : (Mutation.updateTransaction request).plan fate b = .ok edit) :
    ∃ (g : Guid) (plan : TransactionPlan) (t t' : Transaction),
      (Mutation.updateTransaction request).Judged fate (.transaction g) ∧
      b.transaction g = some t ∧ t.AtRest ∧ t'.AtRest ∧ plan.postDate.valid = true ∧
      SameHeader (plan.setHeader t) t' ∧ edit.response = transactionToProto g t' ∧
      edit.after b = b.setEntities (b.entities.insert (.transaction g) t') := by
  obtain ⟨g, plan, hfind, hplan, rfl⟩ := plan_updateTransaction_ok h
  obtain ⟨hg, t, ht⟩ := findTransaction_ok hfind
  have hlookup : b.entities.lookup (.transaction g) = some t := ht
  have htrest : t.AtRest := hrest _ _ hlookup
  exact ⟨g, plan, t, plan.committed fate.newGuid b t, ⟨g, hg, rfl⟩, ht, htrest,
    committed_atRest (planTransaction_settable hplan) htrest, planTransaction_date_valid hplan,
    committed_header plan t, response_updateTransactionEdit ht,
    after_updateTransactionEdit ht htrest.live⟩

/-- The verdict on an update is that the transaction prints as on record. -/
theorem wasApplied_updateTransaction_iff {request : Shim.UpdateTransactionRequest} {g : Guid}
    {t' : Transaction} {response : Shim.Transaction} (h : response = transactionToProto g t') :
    wasApplied b' ((Mutation.updateTransaction request).entry response) = some true ↔
      ∃ r, b'.transaction g = some r ∧ transactionToProto g r = transactionToProto g t' := by
  rw [wasApplied_updateTransaction b' rfl,
    entityMatches_of_entry (g := g) rfl (by rw [h]; rfl), h]

section Loaded

variable {m : Mutation} {edit : Edit m.Response} (hrest : AtRest b.entities)
  (hfresh : fate.Fresh b) (hplan : m.plan fate b = .ok edit)
include hrest hfresh hplan

/-- **What counts as applied was applied**: on a book that has what the verdict looks at as it
was before the mutation, whatever the order, the verdict is that it was not, unless it changes
nothing but that order. -/
theorem wasApplied_unapplied (hsame : SameOn (m.Judged fate) b b')
    (hverdict : wasApplied b' (m.entry edit.response) = some true) : b.Relisted (edit.after b) := by
  have hexact := wasApplied_exact hrest hfresh hplan
  -- where no lists are compared, the order does not come into it
  have others : m.ComparesNoList → b.Relisted (edit.after b) := by
    intro hno
    rw [wasApplied_congr hplan hno hsame] at hverdict
    rw [hexact.unapplied hverdict]
    exact .refl b
  cases m with
  | updateTransaction request =>
    obtain ⟨g, plan, t, t', hjudged, ht, htrest, htrest', hvalid, hheader, hresponse, hafter⟩ :=
      plan_updateTransaction_recorded hrest hplan
    obtain ⟨r, hr, hmessage⟩ := (wasApplied_updateTransaction_iff hresponse).mp hverdict
    obtain ⟨r', hr', hlisted⟩ := (hsame.objects _ hjudged).exists_of_some ht
    obtain rfl : r' = r := Option.some.inj (hr'.symm.trans hr)
    -- the old transaction shows the new one's message, so they differ in their order only
    have hlisted' : t.Relisted t' := hlisted.of_message_eq htrest htrest' hvalid hheader hmessage
    rw [hafter]
    refine ⟨rfl, fun ref => ?_⟩
    by_cases href : ref = .transaction g
    · subst href
      have hnew : (b.setEntities (b.entities.insert (.transaction g) t')).transaction g = some t' :=
        Finmap.lookup_insert _
      show Entity.Relisted (.transaction g) (b.transaction g) (Book.transaction _ g)
      rw [ht, hnew]
      exact .some hlisted'
    · show Entity.Relisted ref _ ((b.entities.insert (.transaction g) t').lookup ref)
      rw [Finmap.lookup_insert_of_ne _ href]
      exact .refl ref _
  | createAccount request => exact others trivial
  | updateAccount request => exact others trivial
  | deleteAccount request => exact others trivial
  | setReconcileInfo request => exact others trivial
  | postTransaction request => exact others trivial
  | deleteTransaction request => exact others trivial
  | addPrice request => exact others trivial

/-- **What was applied counts as applied**, on a book that has what the verdict looks at as the
mutation left it, unless it changed nothing; for an update the transaction has to be listed as
on record. -/
theorem wasApplied_applied (hsame : SameOn (m.Judged fate) (edit.after b) b')
    (hlisted : ListedAsRecorded b' (m.entry edit.response)) :
    wasApplied b' (m.entry edit.response) = some true ∨ edit.after b = b := by
  have hexact := wasApplied_exact hrest hfresh hplan
  -- where no lists are compared, the order does not come into it
  have others : m.ComparesNoList →
      wasApplied b' (m.entry edit.response) = some true ∨ edit.after b = b := by
    intro hno
    rw [wasApplied_congr hplan hno hsame]
    exact hexact.applied
  cases m with
  | updateTransaction request =>
    left
    obtain ⟨g, plan, t, t', hjudged, ht, htrest, htrest', hvalid, hheader, hresponse, hafter⟩ :=
      plan_updateTransaction_recorded hrest hplan
    have hnew : (edit.after b).transaction g = some t' := by
      rw [hafter]
      exact Finmap.lookup_insert _
    obtain ⟨r, hr, hrelisted⟩ := (hsame.objects _ hjudged).exists_of_some hnew
    rw [wasApplied_updateTransaction_iff hresponse]
    refine ⟨r, hr, ?_⟩
    rw [hresponse] at hlisted
    exact hlisted rfl _ g r (Wire.transaction.parse_serialize _) (parseGuid_guidToString g) hr
      (hrelisted.message g)
  | createAccount request => exact others trivial
  | updateAccount request => exact others trivial
  | deleteAccount request => exact others trivial
  | setReconcileInfo request => exact others trivial
  | postTransaction request => exact others trivial
  | deleteTransaction request => exact others trivial
  | addPrice request => exact others trivial

end Loaded

end Daichod
