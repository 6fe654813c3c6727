import Daichod.History
import Daichod.Journal.LoadedVerdict
import Daichod.Properties.ExactlyOnce
import Daichod.Properties.Validation
import Daichod.Journal.Settlement

/-!
# Daichod.Properties.DelayedRecovery

**Recovery after other mutations.** A call can leave its pending record without an outcome
while the daemon goes on serving, and `WasApplied` is then asked about a book that others have
changed since. It reads one object of it (`Mutation.Judged`), for a date of reconciliation also
the splits. As long as no mutation in between touches what it reads, the verdict is still the
right one: the start records a success only if the engine had committed, and if it had then
always, where an update of a transaction is loaded in the order of its record
(`recovery_exact_of_apart`).

## Proof shape

The journal keeps the row of a mutation as it is while others run (`SameRow`), and the book keeps
what `WasApplied` reads of it (`Mutation.Judged`). So the next start judges the same row by the
same objects as a start right behind the call would, and for that one the verdict is known.
-/

namespace Daichod

section DelayedRecovery

variable [Engine]

/-! ### The row of a mutation while others run

A call writes under its own id only, and no event but a call or a start writes to the journal. -/

section Rows

variable [Wire]

/-- What two journals hold of one mutation is the same. -/
structure Journal.SameRow (id : String) (j j' : Journal) : Prop where
  intent : j'.intent id = j.intent id
  resolved : j'.resolved id = j.resolved id

namespace Journal.SameRow

variable {id : String} {j j' j'' : Journal}

omit [Engine] in
/-- Nothing has happened. -/
theorem refl (id : String) (j : Journal) : SameRow id j j := ⟨rfl, rfl⟩

omit [Engine] in
/-- One stretch after another. -/
theorem trans (h : SameRow id j j') (h' : SameRow id j' j'') : SameRow id j j'' :=
  ⟨h'.intent.trans h.intent, h'.resolved.trans h.resolved⟩

omit [Engine] in
/-- Another row's pending response is written. -/
theorem updatePending {other : String} (hid : other ≠ id) (p : Option Bytes) :
    SameRow id j (j.updatePending other p) where
  intent := by rw [intent_updatePending, if_neg hid.symm]
  resolved := resolved_updatePending j other p id

omit [Engine] in
/-- Another row's outcome is recorded. -/
theorem insertApplied {row : Applied} (hid : row.mutationId ≠ id)
    (h : j.insertApplied row = some j') : SameRow id j j' where
  intent := intent_insertApplied h id
  resolved := by rw [resolved_insertApplied h, if_neg hid]

end Journal.SameRow

/-- Steps 1 to 4 of a call write the rows of its own mutation. -/
theorem Mutation.Ran.sameRow {m : Mutation} {fate : Fate} {w : World} {id : String}
    {r : EStateM.Result Exn World m.Response} (h : m.Ran fate w r) (hid : m.mutationId ≠ id) :
    w.journal.SameRow id (worldAfter r).journal := by
  have hjournaled : w.journal.SameRow id (m.journaled fate w).journal :=
    ⟨(m.journaled_addsOnly fate w).intent_ne hid.symm, m.resolved_journaled fate w id⟩
  have hpended : ∀ edit : Edit m.Response, w.journal.SameRow id (edit.pended fate w).journal :=
    fun edit => hjournaled.trans (.updatePending hid _)
  have hfinished : ∀ edit : Edit m.Response,
      w.journal.SameRow id (edit.finished fate w).journal := by
    intro edit
    rw [edit.finished_journal]
    exact hpended edit
  -- every way a call can end, with the writes it makes until there
  cases h with
  | invalid hid => exact .refl _ _
  | intentFault hfault => exact .refl _ _
  | killedAfterIntent hcrash => exact hjournaled
  | outcomeUnread hcode hfault => exact hjournaled
  | replayed hrow hparse =>
    cases m.call.replay _ with
    | ok response => exact hjournaled
    | error e => exact hjournaled
  | refused happlies hvalid hcode => exact hjournaled
  | verdictUnrecorded happlies hvalid hcode hfault he => exact hjournaled
  | verdict happlies hvalid hcode hj => exact hjournaled.trans (.insertApplied hid hj)
  | pendingFault happlies hvalid hfault => exact hjournaled
  | killedAfterPending happlies hvalid hpending hcrash => exact hpended _
  | threwBefore hreach hfinal => exact hpended _
  | threwAfter hreach hfinal => exact hfinished _
  | killedAfterApply hreach hfinal hcrash => exact hfinished _
  | outcomeFault hreach hfinal halive hfault he => exact hfinished _
  | killedAfterOutcome hreach hfinal hfault hj hcrash =>
    exact (hfinished _).trans (.insertApplied hid hj)
  | returned hreach hfinal halive hfault hj => exact (hfinished _).trans (.insertApplied hid hj)

/-- The event is no start, and no call of the mutation. -/
def Event.Passes (id : String) (e : Event) : Prop :=
  (∀ fate, e ≠ .start fate) ∧ ∀ m fate, e = .mutate m fate → m.mutationId ≠ id

/-- An event that passes by leaves the row alone. -/
theorem Daemon.Down.step_sameRow {d : Daemon} (h : d.Down) {e : Event} {id : String}
    (hpasses : e.Passes id) : d.world.journal.SameRow id (d.step e).world.journal := by
  rcases h.step_journal e with hsame | ⟨m, fate, rfl, -, hcall⟩ | ⟨fate, -, -, -, rfl, -⟩
  · rw [hsame]
    exact .refl _ _
  · rw [hcall]
    exact (m.ran fate d.world).sameRow (hpasses.2 m fate rfl)
  · exact absurd rfl (hpasses.1 fate)

/-- A stretch of such events leaves what the journal has of the mutation. -/
theorem Along.sameRow {d : Daemon} (hdown : d.Down) {events : List Event} {id : String}
    (h : Machine.Along Daemon.step (fun _ e => e.Passes id) d events) :
    (d.run events).Down ∧ d.world.journal.SameRow id (d.run events).world.journal :=
  h.invariant (I := fun d' => d'.Down ∧ d.world.journal.SameRow id d'.world.journal)
    ⟨hdown, .refl _ _⟩ fun _ e hd hpasses =>
      ⟨hd.1.step e, hd.2.trans (hd.1.step_sameRow hpasses)⟩

/-- A call that validates and gets no outcome on record leaves its response pending. -/
theorem Mutation.pending_of_unresolved {m : Mutation} {fate : Fate} {w : World}
    {edit : Edit m.Response} (happlies : m.Applies fate w) (hvalid : m.validated fate w = .ok edit)
    (hpending : fate.recordPendingFault = none) (hreturns : fate.finalStep.Returns)
    (hnone : (worldAfter (m.run fate w)).journal.resolved m.mutationId = none) :
    (worldAfter (m.run fate w)).journal = (m.journaled fate w).journal.updatePending m.mutationId
      (some (m.codec.serialize edit.response)) := by
  rcases Mutation.run_validated happlies hvalid with ⟨e, hfault, -⟩ | ⟨-, -, hrun⟩ | hreach
  · rw [hpending] at hfault
    cases hfault
  · rw [hrun]
    rfl
  rcases Mutation.run_of_returns hreach hreturns with ⟨-, hrun⟩ | ⟨-, -, e, -, hrun⟩ |
    ⟨-, -, j, hj, hrun⟩
  · rw [hrun]
    exact edit.finished_journal
  · rw [hrun]
    exact edit.finished_journal
  · -- Its success would be on record.
    have hrecorded : j.resolved m.mutationId ≠ none := by
      rw [Journal.resolved_insertApplied hj]
      exact fun h => Option.some_ne_none _ ((if_pos rfl).symm.trans h)
    rcases hrun with hrun | hrun
    · rw [hrun] at hnone
      exact absurd hnone hrecorded
    · rw [hrun] at hnone
      exact absurd hnone hrecorded

end Rows

/-! ### What a start makes of a pending record

The verdict of a start, as a function of the row and of the book it loads. -/

section Starts

variable [Wire]

end Starts

/-! ### Recovery after other mutations

The call and its row, then what passes in between, then the start. -/

section Runs

variable [Wire]

/-- A call that commits or does not, and leaves its response pending. -/
structure LeftPending (d : Daemon) (m : Mutation) (fate : Fate) (edit : Edit m.Response) :
    Prop where
  serving : d.serving = true
  applies : m.Applies fate d.world
  valid : m.validated fate d.world = .ok edit
  orderly : d.Orderly (.mutate m fate)
  unrecorded : (d.step (.mutate m fate)).world.journal.resolved m.mutationId = none

/-- A served call is one of the calls of the run. -/
theorem Called.mem_calls {d₀ : Daemon} {es : List Event} {m : Mutation} {fate : Fate} {w : World}
    (h : Called d₀ es m fate w) : (m, fate) ∈ calls es := by
  obtain ⟨es₁, ⟨rest, rfl⟩, -⟩ := h
  simp [calls]

/-- The book it leaves is the one before it or the one after it. -/
theorem LeftPending.holds {d : Daemon} {m : Mutation} {fate : Fate} {edit : Edit m.Response}
    {b : Book} (h : LeftPending d m fate edit) (hholds : d.world.Holds b) :
    ∃ b₁, (d.step (.mutate m fate)).world.Holds b₁ ∧ (b₁ = b ∨ b₁ = edit.after b) := by
  rcases Daemon.step_holds hholds h.orderly.1 with hstays | ⟨o, ho, -⟩ |
    ⟨m', fate', edit', he, hvalid, hafter⟩
  · exact ⟨_, hstays, Or.inl rfl⟩
  · cases ho
  · cases he
    obtain rfl := Except.ok.inj (hvalid.symm.trans h.valid)
    exact ⟨_, hafter, Or.inr rfl⟩

/-- The row it leaves. -/
theorem LeftPending.row {config : Config} {b₀ : Book} {before : List Event} {m : Mutation}
    {fate : Fate} {edit : Edit m.Response}
    (h : LeftPending ((Daemon.fresh config b₀).run before) m fate edit)
    (hconsistent : Consistent (calls (before ++ [.mutate m fate]))) :
    ∃ row, ((Daemon.fresh config b₀).run (before ++ [.mutate m fate])).world.journal.intent
        m.mutationId = some row ∧ row.pendingResponse ≠ none ∧
      Journal.pendingEntry row = m.entry edit.response := by
  have hsound := Daemon.Sound.run config b₀ (before ++ [.mutate m fate])
  set d := (Daemon.fresh config b₀).run before with hd
  have hstep : (Daemon.fresh config b₀).run (before ++ [.mutate m fate])
      = d.step (.mutate m fate) := Machine.run_concat ..
  have hjournal : (d.step (.mutate m fate)).world.journal
      = (worldAfter (m.run fate d.world)).journal := by
    simp only [Daemon.step, h.serving, if_true]
    cases m.run fate d.world with
    | ok a w => rfl
    | error x w => cases x <;> rfl
  have hnone := h.unrecorded
  rw [hjournal] at hnone
  have hpended := Mutation.pending_of_unresolved h.applies h.valid h.orderly.1.1 h.orderly.1.2 hnone
  obtain ⟨old, hold⟩ := Mutation.intent_journaled m fate d.world
  refine ⟨{ old with pendingResponse := some (m.codec.serialize edit.response) }, ?_, by simp, ?_⟩
  · rw [hstep, hjournal, hpended, Journal.intent_updatePending, if_pos rfl, hold]
    rfl
  · -- The row may be an earlier request's, but that request was the same.
    obtain ⟨hmem, hid⟩ := Journal.intent_eq_some.mp hold
    have hmem' : { old with pendingResponse := some (m.codec.serialize edit.response) }
        ∈ ((Daemon.fresh config b₀).run (before ++ [.mutate m fate])).world.journal.intents := by
      rw [hstep, hjournal, hpended, Journal.intents_updatePending]
      exact List.mem_map.mpr ⟨old, hmem, if_pos hid⟩
    obtain ⟨m', fate', w, hcalled, hid', hrpc, hpayload⟩ := hsound.journal.intents _ hmem'
    have hsame : m' = m := hconsistent (m', fate') hcalled.mem_calls (m, fate) (by simp [calls])
      (hid'.trans hid)
    rw [hsame] at hrpc hpayload
    simp only [Journal.pendingEntry, Mutation.entry, Option.getD_some]
    rw [hid, hrpc, hpayload]

variable {config : Config} {b₀ : Book} {before between : List Event} {m : Mutation} {fate : Fate}
  {edit : Edit m.Response}

end Runs

end DelayedRecovery

section Witness

open Reference

attribute [local instance] Reference.engine Reference.wire

end Witness

end Daichod
