import Daichod.Journal.Settlement
import Daichod.Reference

/-!
# Daichod.Properties.Restartable

**Recovery can be restarted.** Each entry of the work list is resolved by a write of its
own and the list is read from the tables again on every attempt, so an attempt that is
broken off between two writes leaves records that are settled and records that are not
(`attempts_partly`). A complete sweep settles the rest, and what it comes to does not depend
on the attempts before it (`recovery_restartable`).
-/

namespace Daichod

section Restartable

variable [Wire] [Engine] {book : Book} {w : World}

/-- A broken-off attempt as the next process finds it: its writes are in the journal, its
memory is gone. -/
def attempt (book : Book) (w : World) (fate : ReconcileFate) : World :=
  (worldAfter (reconcilePendingMutations fate book w)).die

/-- Two journals that differ in nothing but the times in `applied`. -/
structure Journal.SameUpToTimes (j j' : Journal) : Prop where
  outcomes : ∀ id, (j.resolved id).map Applied.outcome = (j'.resolved id).map Applied.outcome
  intents : j.intents = j'.intents
  indeterminate : j.listIndeterminate = j'.listIndeterminate

omit [Engine] in
theorem Journal.sameUpToTimes_of_records {j j' : Journal} (h : j.records = j'.records) :
    j.SameUpToTimes j' where
  outcomes := outcome_eq h
  intents := intents_eq h
  indeterminate := listIndeterminate_eq h

/-- After any number of attempts some of the records are settled. -/
theorem attempts_partly (book : Book) (w : World) (fates : List ReconcileFate) :
    Sweep.Partly (Journal.Record.settle book) w.journal.records
      (Machine.run (attempt book) w fates).journal.records :=
  Sweep.Partly.run (attempt book) (fun w => w.journal.records) (Journal.settle_settle book)
    (fun w fate => Journal.reconcile_partly fate book w) w fates

/-- **Recovery can be restarted**: broken off any number of times and then run to its end, it
leaves what an uninterrupted run leaves, and then there is nothing left to do. -/
theorem recovery_restartable (book : Book) (w : World) :
    (∀ fate : ReconcileFate, fate.Undisturbed →
      Returned (reconcilePendingMutations fate book w)) ∧
    ∀ (broken : List ReconcileFate) (last uninterrupted : ReconcileFate),
      Returned (reconcilePendingMutations last book (Machine.run (attempt book) w broken)) →
      Returned (reconcilePendingMutations uninterrupted book w) →
      (worldAfter (reconcilePendingMutations last book
          (Machine.run (attempt book) w broken))).journal.SameUpToTimes
        (worldAfter (reconcilePendingMutations uninterrupted book w)).journal ∧
      ∀ (w' : World) (fate : ReconcileFate),
        w'.journal = (worldAfter (reconcilePendingMutations last book
          (Machine.run (attempt book) w broken))).journal →
        worldAfter (reconcilePendingMutations fate book w') = w' ∧
          (Returned (reconcilePendingMutations fate book w') →
            reconcilePendingMutations fate book w' = .ok 0 w') := by
  refine ⟨fun fate hfate => Journal.reconcile_undisturbed hfate book w, ?_⟩
  intro broken last uninterrupted hlast huninterrupted
  have hpartly := attempts_partly book w broken
  have hcomplete := Journal.reconcile_complete hlast
  refine ⟨Journal.sameUpToTimes_of_records ?_, ?_⟩
  · rw [hcomplete, Journal.reconcile_complete huninterrupted]
    exact hpartly.map_eq (Journal.settle_settle book)
  · intro w' fate hjournal
    have hsettled : w'.journal.records.map (Journal.Record.settle book) = w'.journal.records := by
      rw [hjournal, hcomplete, Sweep.map_map (Journal.settle_settle book)]
    exact Journal.reconcile_of_nothing (Journal.listPendingUnresolved_of_settled hsettled) fate book

end Restartable

section TwoPending

open Reference

attribute [local instance] Reference.engine Reference.wire

/-- A post that never reached the book. -/
def lostPost : Intent := pendingRow (post '1' 100) 0 (transaction (guidToString 16) [])

/-- The deletion of an account that is gone. -/
def doneDelete : Intent := pendingRow (.deleteAccount ⟨⟨mutationId '2'⟩, guidToString 9⟩) 1 ()

/-- A process died with both unresolved. -/
def twoPending : World :=
  started.world.setJournal ((Journal.empty.insertIntent lostPost).insertIntent doneDelete)

/-- The process dies between its two writes. -/
def betweenWrites : ReconcileFate := ⟨0, none, fun _ => none, some 1⟩

theorem recovery_restartable_twoPending :
    (worldAfter (reconcilePendingMutations undisturbed book
        (Machine.run (attempt book) twoPending [betweenWrites]))).journal.SameUpToTimes
      (worldAfter (reconcilePendingMutations undisturbed book twoPending)).journal :=
  ((recovery_restartable book twoPending).2 [betweenWrites] undisturbed undisturbed
    (Journal.reconcile_undisturbed undisturbed_undisturbed book _)
    (Journal.reconcile_undisturbed undisturbed_undisturbed book _)).1

end TwoPending

end Daichod
