import Daichod.Journal.LoadedVerdict
import Daichod.Properties.FullReplacement

/-!
# Daichod.Properties.ListOrder

**Recovery of an update depends on the order in which the engine lists splits.** `WasApplied`
compares the bytes of two messages, and a message has its splits in the order of the engine's
list: on one side the list of the process that died, on the other the list that the new
process has loaded. So an update that reached the book is recognized exactly when the second
list has the order of the record (`recovers_iff`). An update that did not reach the book and
that changes anything is never taken for one that did, whatever the order.

## Proof shape

The killed update has left one of two transactions, the old one or the new one, and a load lists
its splits in any order. Two messages of one transaction are the same exactly if the lists are,
and messages are compared by their bytes, which determine them.
-/

namespace Daichod

/-! ### Messages of relisted transactions

Relisting changes the order of the splits of a message, and nothing else of it. -/

section Messages

variable [Engine] {t r : Transaction}

/-- A relisted transaction prints alike exactly when its splits are printed in that order. -/
theorem Transaction.Relisted.message_eq_iff (h : t.Relisted r) (g : Guid) :
    transactionToProto g r = transactionToProto g t ↔
      (transactionToProto g r).splits = (transactionToProto g t).splits := by
  refine ⟨congrArg Shim.Transaction.splits, fun hsplits => ?_⟩
  have hheader := (h.message g).header
  rwa [← hsplits] at hheader

end Messages

/-! ### What a killed update leaves

The process dies behind the commit or before it; the pending record is the same in both cases. -/

section Killed

variable [Wire] [Engine] {m : Mutation} {fate : Fate} {w : World} {edit : Edit m.Response}
  {entry : Journal.PendingEntry}

/-- What a call leaves that is killed behind the commit, or between the pending record and
the commit. -/
def Mutation.killed (m : Mutation) (fate : Fate) (w : World) (committed : Bool) : World :=
  worldAfter (m.run
    { fate with crashAt := some (if committed then .afterApply else .afterPending) } w)

/-- A pending record that startup reconciliation will meet is the call's. -/
structure Mutation.Pending (m : Mutation) (j : Journal) (entry : Journal.PendingEntry) :
    Prop where
  listed : entry ∈ j.listPendingUnresolved.map Journal.pendingEntry
  id : entry.mutationId = m.mutationId
  rpc : entry.rpcName = m.rpcName

/-- The world that is left, by whether the engine had committed. -/
theorem killed_eq (hreach : m.Reaches fate w edit) (hcommits : fate.finalStep = .commits)
    (committed : Bool) :
    m.killed fate w committed = if committed then edit.finished fate w else edit.pended fate w := by
  cases committed with
  | true => rw [Mutation.killed, if_pos rfl, Mutation.run_killedAfterApply hreach hcommits]; rfl
  | false => rw [Mutation.killed, if_neg (by simp), Mutation.run_killedAfterPending hreach]; rfl

/-- Wherever the call is killed, its record holds the response to the edit. -/
theorem Mutation.Pending.response (hreach : m.Reaches fate w edit)
    (hcommits : fate.finalStep = .commits) {committed : Bool}
    (h : m.Pending (m.killed fate w committed).journal entry) :
    entry.pendingResponse = m.codec.serialize edit.response := by
  obtain ⟨row, hrow, rfl⟩ := List.mem_map.mp h.listed
  have hmem := (Journal.mem_listPendingUnresolved.mp hrow).1
  have hintent : (m.killed fate w committed).journal.intent m.mutationId = some row :=
    Journal.intent_eq_some.mpr ⟨hmem, h.id⟩
  have hjournal : (m.killed fate w committed).journal
      = (m.journaled fate w).journal.updatePending m.mutationId
          (some (m.codec.serialize edit.response)) := by
    rw [killed_eq hreach hcommits]
    cases committed with
    | true => exact edit.finished_journal
    | false => rfl
  obtain ⟨i, hi⟩ := Mutation.intent_journaled m fate w
  rw [hjournal, Journal.intent_updatePending, if_pos rfl, hi] at hintent
  obtain rfl := Option.some.inj hintent
  rfl

/-- The database has the result of the edit, or still the old book. -/
theorem killed_durableBook (hreach : m.Reaches fate w edit) (hcommits : fate.finalStep = .commits)
    (hquiet : w.store.Quiet) (committed : Bool) :
    (m.killed fate w committed).durableBook = if committed then edit.after w.book else w.book := by
  have hatomic := Mutation.validated_atomic hreach.valid
  rw [killed_eq hreach hcommits]
  cases committed with
  | true =>
    exact Edit.finished_durableBook hatomic hquiet (FinalStep.ne_declines_of_commits hcommits)
  | false =>
    exact (Edit.pended_durableBook hatomic).trans (World.book_of_quiet hquiet).symm

end Killed

/-! ### The verdict -/

section Verdict

variable [Wire] [Engine] {request : Shim.UpdateTransactionRequest} {fate : Fate} {w : World}
  {edit : Edit Shim.Transaction} {g : Guid} {t : Transaction}

/-- **When recovery of an update is right.** The update was killed behind its commit
(`committed`) or before it, its transaction is on disk as `kept` and is loaded as `r`; an
update that was not committed changes more than the order of the list. Then the verdict says
what happened exactly when a committed transaction is listed as in the pending record. -/
theorem recovers_iff (hreach : (Mutation.updateTransaction request).Reaches fate w edit)
    (hcommits : fate.finalStep = .commits) (hquiet : w.store.Quiet)
    (hfind : findTransaction w.book request.transaction.guid "transaction.guid" = .ok g)
    (ht : w.book.transaction g = some t) (hrest : t.AtRest)
    {committed : Bool} {entry : Journal.PendingEntry} {kept r : Transaction} {book : Book}
    (hentry : (Mutation.updateTransaction request).Pending
      ((Mutation.updateTransaction request).killed fate w committed).journal entry)
    (hkept : ((Mutation.updateTransaction request).killed fate w committed).durableBook.transaction g
      = some kept)
    (hloaded : book.transaction g = some r) (hlisted : kept.Relisted r)
    (hchanges : committed = false → ∀ t',
      ((Mutation.updateTransaction request).effect fate w.book).transaction g = some t' →
        ¬kept.Relisted t') :
    ∃ message, Wire.transaction.parse entry.pendingResponse = some message ∧
      (wasApplied book entry = some committed ↔
        (committed = true → (transactionToProto g r).splits = message.splits)) := by
  obtain ⟨g', plan, hfind', hplan, rfl⟩ :=
    plan_updateTransaction_ok (Mutation.validated_ok hreach.valid).2.2
  obtain rfl := Except.ok.inj (hfind'.symm.trans hfind)
  rw [ht] at hplan
  let t' := plan.committed fate.newGuid w.book t
  have hsettable := planTransaction_settable hplan
  have hrest' : t'.AtRest := committed_atRest hsettable hrest
  have hafter : (updateTransactionEdit fate.newGuid g' w.book plan).after w.book
      = w.book.setEntities (w.book.entities.insert (.transaction g') t') :=
    after_updateTransactionEdit ht hrest.live
  have hresponse : (updateTransactionEdit fate.newGuid g' w.book plan).response
      = transactionToProto g' t' := response_updateTransactionEdit ht
  have hrecord := hentry.response hreach hcommits
  rw [hresponse] at hrecord
  -- the verdict compares what was loaded with what is on record
  have hverdict : wasApplied book entry
      = some (Wire.transaction.serialize (transactionToProto g' r)
          == Wire.transaction.serialize (transactionToProto g' t')) := by
    rw [wasApplied_updateTransaction book hentry.rpc]
    exact entityMatches_of_found hrecord rfl hloaded
  refine ⟨transactionToProto g' t', ?_, ?_⟩
  · rw [hrecord]
    exact Wire.transaction.parse_serialize _
  rw [hverdict]
  rw [killed_durableBook hreach hcommits hquiet] at hkept
  cases committed with
  -- committed: the message is the record's if the order is
  | true =>
    have hkept : t' = kept := by
      rw [if_pos rfl, hafter] at hkept
      exact Option.some.inj ((Finmap.lookup_insert _).symm.trans hkept)
    rw [← hkept] at hlisted
    have hmessage := hlisted.message_eq_iff g'
    simp only [Option.some.injEq, beq_iff_eq, forall_const]
    rw [← hmessage]
    exact ⟨Wire.transaction.serialize_inj, congrArg _⟩
  -- not committed: the message would have to be the old transaction's, which the update changes
  | false =>
    have hkept : t = kept := by
      rw [if_neg (by simp)] at hkept
      exact Option.some.inj (ht.symm.trans hkept)
    subst hkept
    have hdiffer : transactionToProto g' r ≠ transactionToProto g' t' := by
      intro hmessage
      refine hchanges rfl t' ?_ (hlisted.of_message_eq hrest hrest'
        (planTransaction_date_valid hplan) (committed_header plan t) hmessage)
      rw [Mutation.effect_of_validated hreach.valid, hafter]
      exact Finmap.lookup_insert _
    have hbytes := mt Wire.transaction.serialize_inj hdiffer
    simpa using hbytes

end Verdict

section Swapped

open Reference

attribute [local instance] Reference.engine Reference.wire

/-- The corrected receipt is in the book, and the process is killed. -/
def corrected : World := (Mutation.updateTransaction correct).killed (calm 32) posted true

/-- A split of the receipt as the correction leaves it. -/
def correctedSplit (guid account : Guid) (amount : Int64) : Split :=
  { Split.blank guid account with value := ⟨amount, 100⟩, amount := ⟨amount, 100⟩ }

/-- The receipt, corrected, with the given splits. -/
def correctedReceipt (splits : List Split) : Transaction :=
  { receipt with enterTime := 7, splits := splits }

/-- The book as a new process loads it, with the new split first. -/
def reloaded : Book :=
  corrected.durableBook.setEntities (corrected.durableBook.entities.insert (.transaction 16)
    (correctedReceipt [correctedSplit 34 3 250, correctedSplit 17 2 (-250)]))

/-- The update is in the book, and is not recognized. -/
theorem swapped_unrecognized :
    corrected.durableBook.transaction 16
        = some (correctedReceipt [correctedSplit 17 2 (-250), correctedSplit 34 3 250]) ∧
      (correctedReceipt [correctedSplit 17 2 (-250), correctedSplit 34 3 250]).Relisted
        (correctedReceipt [correctedSplit 34 3 250, correctedSplit 17 2 (-250)]) ∧
      reloaded.transaction 16
        = some (correctedReceipt [correctedSplit 34 3 250, correctedSplit 17 2 (-250)]) ∧
      (corrected.journal.listPendingUnresolved.map fun row =>
          (row.mutationId, wasApplied reloaded (Journal.pendingEntry row)))
        = [(mutationId '2', some false)] := by
  refine ⟨by decide +kernel, ⟨⟨rfl, rfl, rfl, rfl, rfl, rfl, rfl⟩, List.Perm.swap ..⟩,
    Finmap.lookup_insert _, by decide +kernel⟩

/-- The two splits of the corrected receipt, loaded the other way round. -/
theorem recovers_iff_swapped :
    ∃ entry, (Mutation.updateTransaction correct).Pending corrected.journal entry ∧
      ∃ message, Wire.transaction.parse entry.pendingResponse = some message ∧
        (wasApplied reloaded entry = some true ↔
          (true = true → (transactionToProto 16
            (correctedReceipt [correctedSplit 34 3 250, correctedSplit 17 2 (-250)])).splits
              = message.splits)) := by
  obtain ⟨edit, hreach⟩ := exists_reaches_correct
  have hrecords : corrected.journal.listPendingUnresolved.map
      (fun row => (row.mutationId, row.rpcName))
      = [((Mutation.updateTransaction correct).mutationId,
        (Mutation.updateTransaction correct).rpcName)] := by
    decide +kernel
  obtain ⟨row, hrows, hkey⟩ := List.map_eq_singleton_iff.mp hrecords
  have hentry : (Mutation.updateTransaction correct).Pending corrected.journal
      (Journal.pendingEntry row) :=
    ⟨by simp [hrows], (Prod.mk.inj hkey).1, (Prod.mk.inj hkey).2⟩
  have hkept : corrected.durableBook.transaction 16 = some (correctedReceipt
      [correctedSplit 17 2 (-250), correctedSplit 34 3 250]) := by decide +kernel
  have hlisted : (correctedReceipt [correctedSplit 17 2 (-250), correctedSplit 34 3 250]).Relisted
      (correctedReceipt [correctedSplit 34 3 250, correctedSplit 17 2 (-250)]) :=
    ⟨⟨rfl, rfl, rfl, rfl, rfl, rfl, rfl⟩, List.Perm.swap ..⟩
  have hloaded : reloaded.transaction 16 = some (correctedReceipt
      [correctedSplit 34 3 250, correctedSplit 17 2 (-250)]) := Finmap.lookup_insert _
  exact ⟨_, hentry, recovers_iff hreach rfl posted_quiet find_receipt posted_receipt
    receipt_atRest hentry hkept hloaded hlisted (by simp)⟩

end Swapped

end Daichod
