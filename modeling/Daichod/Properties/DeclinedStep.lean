import Daichod.Reference

/-!
# Daichod.Properties.DeclinedStep

**A last step the engine declines.** No handler looks at what its last engine call reports:
not at the session's error after a commit, not at whether `xaccTransDestroy` destroyed
anything, not at the result of `gnc_pricedb_add_price`. So a declined step leaves the book
as it was (`durableBook_of_declined`) and is recorded and answered as a success, unless the
process dies or the journal fails before it can be (`answersFailure_iff`).
-/

namespace Daichod

section DeclinedStep

variable [Wire] [Engine]

/-- The engine takes the last step of the mutation without doing what it asks. -/
def Mutation.Refused (fate : Fate) (b : Book) : Mutation → Prop
  -- `xaccTransDestroy` leaves a read-only transaction alone.
  | .deleteTransaction request => ∃ g transaction,
      findTransaction b request.guid "guid" = .ok g ∧ b.transaction g = some transaction ∧
        transaction.readOnly = true
  -- `gnc_pricedb_add_price` returns false on a day that has a price of better precedence.
  | .addPrice request => ∃ p,
      (Mutation.addPrice request).plan fate b = .ok (Edit.price (fate.newGuid 0) p) ∧
        Outranked (b.entities.insert (.price (fate.newGuid 0)) p) p
  | _ => False

/-- The engine declines the last step, in one of the ways it has. -/
def Mutation.Declined (m : Mutation) (fate : Fate) (w : World) : Prop :=
  (∃ error, fate.finalStep = .declines error) ∨
    (fate.finalStep = .commits ∧ m.Refused fate w.book)

/-- What an answer to a declined mutation should be: no success, neither on record nor to
the client. -/
def AnswersFailure (m : Mutation) (fate : Fate) (w : World) : Prop :=
  ¬(worldAfter (m.run fate w)).journal.RecordedOk m.mutationId ∧
    (replyOf (m.run fate w)).isOk = false

variable {m : Mutation} {fate : Fate} {w : World} {edit : Edit m.Response}

theorem Mutation.Declined.returns (h : m.Declined fate w) : fate.finalStep.Returns := by
  rcases h with ⟨error, hdeclines⟩ | ⟨hcommits, -⟩
  · rw [hdeclines]
    trivial
  · exact FinalStep.returns_of_commits hcommits

omit [Wire] in
/-- A step the engine refuses changes nothing. -/
theorem Mutation.Refused.after_eq {b : Book} (h : m.Refused fate b)
    (hplan : m.plan fate b = .ok edit) (hrest : AtRest b.entities) (hfresh : fate.Fresh b) :
    edit.after b = b := by
  cases m with
  | deleteTransaction request =>
    obtain ⟨g, transaction, hfind, htransaction, hreadOnly⟩ := h
    obtain ⟨g', hfind', rfl⟩ := plan_deleteTransaction_ok hplan
    obtain rfl := Except.ok.inj (hfind'.symm.trans hfind)
    have hlookup : b.entities.lookup (.transaction g') = some transaction := htransaction
    have hsame : transaction.destroy = transaction := by simp [Transaction.destroy, hreadOnly]
    rw [deleteTransactionEdit, Edit.after_destroy, editTransaction_of_lookup hlookup, hsame,
      Finmap.insert_lookup_self hlookup, hrest.settle_eq, Book.setEntities_self]
  | addPrice request =>
    obtain ⟨p, hplan', houtranked⟩ := h
    obtain rfl := Except.ok.inj (hplan'.symm.trans hplan)
    have hlookup : (b.entities.insert (.price (fate.newGuid 0)) p).lookup
        (.price (fate.newGuid 0)) = some p := Finmap.lookup_insert _
    have hnone : b.entities.lookup (.price (fate.newGuid 0)) = none := (hfresh 0).2.2
    rw [Edit.after_price]
    simp only [gncPricedbAddPrice, hlookup, if_pos houtranked]
    rw [Finmap.erase_insert_self hnone, Book.setEntities_self]
  | _ => exact h.elim

/-- **A declined step changes nothing** in the database. -/
theorem durableBook_of_declined (h : m.Declined fate w) (hquiet : w.store.Quiet)
    (hrest : AtRest w.book.entities) (hfresh : fate.Fresh w.book)
    (hvalid : m.validated fate w = .ok edit) :
    (edit.finished fate w).durableBook = w.durableBook := by
  have hatomic := Mutation.validated_atomic hvalid
  rcases h with ⟨error, hdeclines⟩ | ⟨hcommits, hrefused⟩
  · have hstore := Edit.finished_store_of_declines hatomic hquiet hdeclines
    unfold Edit.finished at hstore ⊢
    rw [hdeclines] at hstore ⊢
    rw [World.durableBook, hstore]
    rfl
  · rw [Edit.finished_durableBook hatomic hquiet (FinalStep.ne_declines_of_commits hcommits),
      hrefused.after_eq (Mutation.validated_ok hvalid).2.2 hrest hfresh,
      World.book_of_quiet hquiet]

/-- **When a declined mutation is not answered as a success**: exactly when the process dies
right after the step, or the journal fails to record the success. -/
theorem answersFailure_iff (hreach : m.Reaches fate w edit) (hdeclined : m.Declined fate w) :
    AnswersFailure m fate w ↔
      fate.crashAt = some .afterApply ∨ fate.recordOutcomeFault ≠ none := by
  have hunrecorded : ¬(edit.finished fate w).journal.RecordedOk m.mutationId := by
    intro h
    exact h.resolved_ne_none ((edit.resolved_finished fate w _).trans hreach.unresolved)
  rcases Mutation.run_of_returns hreach hdeclined.returns with ⟨hcrash, hrun⟩ |
    ⟨hcrash, hfault, e, -, hrun⟩ | ⟨hcrash, hfault, j, hj, hrun⟩
  · rw [AnswersFailure, hrun]
    exact ⟨fun _ => Or.inl hcrash, fun _ => ⟨hunrecorded, rfl⟩⟩
  · rw [AnswersFailure, hrun]
    exact ⟨fun _ => Or.inr hfault, fun _ => ⟨hunrecorded, rfl⟩⟩
  · have hrecorded : j.RecordedOk m.mutationId :=
      (Journal.recordedOk_insertApplied hj).mpr (by rw [if_pos rfl]; rfl)
    have hno : ¬AnswersFailure m fate w := by
      rintro ⟨hnot, -⟩
      rcases hrun with hrun | hrun
      · rw [hrun] at hnot
        exact hnot hrecorded
      · rw [hrun] at hnot
        exact hnot hrecorded
    refine ⟨fun h => absurd h hno, fun h => ?_⟩
    rcases h with h | h
    · exact absurd h hcrash
    · exact absurd hfault h

end DeclinedStep

section Post

open Reference

attribute [local instance] Reference.engine Reference.wire

/-- The database cannot be written. -/
def ioError : SessionError := ⟨.other 10, "disk I/O error"⟩

/-- A transaction the database refused is recorded and answered as posted. -/
theorem declined_post_ok :
    (replyOf ((post '1' 100).run { calm 16 with finalStep := .declines ioError }
        started.world)).isOk = true ∧
      (worldAfter ((post '1' 100).run { calm 16 with finalStep := .declines ioError }
        started.world)).durableBook = book ∧
      ¬AnswersFailure (post '1' 100) { calm 16 with finalStep := .declines ioError }
        started.world := by
  refine ⟨by decide +kernel, by decide +kernel, fun h => h.1 ?_⟩
  decide +kernel

theorem answersFailure_iff_post :
    AnswersFailure (post '1' 100) { calm 16 with finalStep := .declines ioError } started.world ↔
      (none : Option CrashPoint) = some .afterApply ∨ (none : Option SqliteError) ≠ none := by
  have happlies : (post '1' 100).Applies { calm 16 with finalStep := .declines ioError }
      started.world :=
    ⟨by decide +kernel, rfl, by decide, rfl, by decide +kernel⟩
  obtain ⟨edit, hreach⟩ := happlies.exists_reaches (by decide +kernel) rfl (by decide)
  exact answersFailure_iff hreach (Or.inl ⟨ioError, rfl⟩)

end Post

end Daichod
