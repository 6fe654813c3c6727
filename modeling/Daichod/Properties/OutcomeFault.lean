import Daichod.Reference

/-!
# Daichod.Properties.OutcomeFault

**A journal failure at step 4**: the engine has committed and `RecordOutcome` throws. From
then on the journal and the book disagree, and only a restart reconciles them: until it the
mutation is listed as indeterminate, which promises that it is unapplied
(`listed_of_outcomeFault`), and a client that believes this and sends it again has it
applied again (`resend_applies_again`).
-/

namespace Daichod

section OutcomeFault

variable [Wire] [Engine]

/-- What at-most-once asks of the rest of the process, once `m` has been applied. -/
structure AppliedAtMostOnce (m : Mutation) (d : Daemon) : Prop where
  /-- A re-send does not change the book. -/
  book : ∀ events, (∀ e ∈ events, e.InProcess) → ∀ fate, fate.crashAt = none →
    ((d.run events).step (.mutate m fate)).world.book = (d.run events).world.book
  /-- A re-send records no failure. -/
  failure : ∀ events, (∀ e ∈ events, e.InProcess) → ∀ fate, fate.crashAt = none →
    ¬((d.run events).step (.mutate m fate)).world.journal.RecordedFailure m.mutationId
  /-- It is never listed as indeterminate. -/
  unlisted : ∀ events, (∀ e ∈ events, e.InProcess) →
    ∀ row ∈ (d.run events).world.journal.listIndeterminate, row.mutationId ≠ m.mutationId

variable {d : Daemon} {m : Mutation} {fate : Fate} {edit : Edit m.Response}

/-- A failed step 4 leaves the daemon serving, with the engine's last step done. -/
theorem step_of_outcomeFault (hserving : d.serving = true) (hreach : m.Reaches fate d.world edit)
    (hfinal : fate.finalStep.Returns) (halive : fate.crashAt ≠ some .afterApply)
    (hfault : fate.recordOutcomeFault ≠ none) :
    d.step (.mutate m fate) = ⟨edit.finished fate d.world, true⟩ := by
  simp only [Daemon.step, hserving, if_true]
  rcases Mutation.run_of_returns hreach hfinal with ⟨hcrash, -⟩ | ⟨-, -, e, -, hrun⟩ | ⟨-, hnone, -⟩
  · exact absurd hcrash halive
  · rw [hrun]
    rfl
  · exact absurd hnone hfault

/-- An applied mutation without an outcome is listed as indeterminate. -/
theorem listed_of_outcomeFault (hreach : m.Reaches fate d.world edit) :
    ∃ row ∈ (edit.finished fate d.world).journal.listIndeterminate,
      row.mutationId = m.mutationId := by
  obtain ⟨row, hrow⟩ := edit.intent_finished fate d.world
  obtain ⟨hmem, hid⟩ := Journal.intent_eq_some.mp hrow
  refine ⟨row, Journal.mem_listIndeterminate.mpr ⟨hmem, ?_⟩, hid⟩
  rw [hid, edit.resolved_finished]
  exact hreach.unresolved

/-- **The re-send is applied again**, whatever validation makes of the book it now meets. -/
theorem resend_applies_again {fate' : Fate} {edit' : Edit m.Response}
    (hserving : d.serving = true) (hquiet : d.world.store.Quiet)
    (hreach : m.Reaches fate d.world edit) (hcommits : fate.finalStep = .commits)
    (halive : fate.crashAt ≠ some .afterApply) (hfault : fate.recordOutcomeFault ≠ none)
    (hreach' : m.Reaches fate' (d.step (.mutate m fate)).world edit')
    (hcommits' : fate'.finalStep = .commits) :
    ((d.step (.mutate m fate)).step (.mutate m fate')).world.durableBook
      = m.effect fate' (m.effect fate d.world.book) := by
  have hdecline := FinalStep.ne_declines_of_commits hcommits
  have hdecline' := FinalStep.ne_declines_of_commits hcommits'
  have hfirst := step_of_outcomeFault hserving hreach (FinalStep.returns_of_commits hcommits)
    halive hfault
  have hatomic := Mutation.validated_atomic hreach.valid
  have hstore := Edit.finished_store hatomic hquiet hdecline
  have hquiet' : (edit.finished fate d.world).store.Quiet := by
    rw [hstore]
    exact EditStore.ofTable_quiet _
  have hbook' : (edit.finished fate d.world).book = m.effect fate d.world.book := by
    rw [World.book_of_quiet hquiet', Mutation.effect_of_validated hreach.valid]
    exact Edit.finished_durableBook hatomic hquiet hdecline
  rw [hfirst] at hreach' ⊢
  have hsecond : (edit'.finished fate' (edit.finished fate d.world)).durableBook
      = m.effect fate' (m.effect fate d.world.book) := by
    rw [Edit.finished_durableBook (Mutation.validated_atomic hreach'.valid) hquiet' hdecline',
      ← Mutation.effect_of_validated hreach'.valid, hbook']
  simp only [Daemon.step, if_true]
  rw [← hsecond]
  rcases Mutation.run_of_returns hreach' (FinalStep.returns_of_commits hcommits') with
    ⟨-, hrun⟩ | ⟨-, -, e, -, hrun⟩ | ⟨-, -, j, -, hrun | hrun⟩
  · rw [hrun]; rfl
  · rw [hrun]; rfl
  · rw [hrun]; rfl
  · rw [hrun]; rfl

/-- **Step 4 is never safe**: whatever the mutation and the book, once the engine has
committed and `RecordOutcome` has thrown, at-most-once is broken. -/
theorem not_appliedAtMostOnce_of_outcomeFault (hserving : d.serving = true)
    (hreach : m.Reaches fate d.world edit) (hcommits : fate.finalStep = .commits)
    (halive : fate.crashAt ≠ some .afterApply) (hfault : fate.recordOutcomeFault ≠ none) :
    ¬AppliedAtMostOnce m (d.step (.mutate m fate)) := by
  intro h
  obtain ⟨row, hrow, hid⟩ := listed_of_outcomeFault hreach
  refine h.unlisted [] (by simp) row ?_ hid
  rw [step_of_outcomeFault hserving hreach (FinalStep.returns_of_commits hcommits) halive hfault]
  exact hrow

end OutcomeFault

section Post

open Reference

attribute [local instance] Reference.engine Reference.wire

/-- Posting a transaction; the disk is full at step 4. -/
def postUnrecorded : Daemon :=
  started.step (.mutate (post '1' 100) { calm 16 with recordOutcomeFault := some diskFull })

/-- The re-sent transaction is in the book twice. -/
theorem posted_twice :
    postUnrecorded.serving = true ∧ postUnrecorded.world.durableBook.transactions.card = 1 ∧
      (postUnrecorded.step (.mutate (post '1' 100) (calm 32))).world.durableBook.transactions.card
        = 2 ∧
      ¬AppliedAtMostOnce (post '1' 100) postUnrecorded := by
  have htwice : (postUnrecorded.step (.mutate (post '1' 100) (calm 32))).world.book.transactions.card
      = 2 := by decide +kernel
  have honce : postUnrecorded.world.book.transactions.card = 1 := by decide +kernel
  refine ⟨by decide +kernel, by decide +kernel, by decide +kernel, fun h => ?_⟩
  have hsame := h.book [] (by simp) (calm 32) rfl
  have hcard := congrArg (fun b : Book => b.transactions.card) hsame
  have hcard : 2 = 1 := htwice.symm.trans (hcard.trans honce)
  omega

theorem not_appliedAtMostOnce_postUnrecorded :
    ¬AppliedAtMostOnce (post '1' 100) postUnrecorded := by
  have happlies : (post '1' 100).Applies { calm 16 with recordOutcomeFault := some diskFull }
      started.world :=
    ⟨by decide +kernel, rfl, by decide, rfl, by decide +kernel⟩
  obtain ⟨edit, hreach⟩ := happlies.exists_reaches (by decide +kernel) rfl (by decide)
  exact not_appliedAtMostOnce_of_outcomeFault started_serving hreach rfl (by decide) (by simp)

end Post

end Daichod
