import Daichod.Rpc.Anatomy

/-!
# Daichod.Rpc.Ran

Everything one mutating call can do. `Mutation.Ran m fate w r` has one constructor for each
way `RunMutation` can end, with its conditions and the world it leaves; `Mutation.ran` says
the task's own result is always one of them. Every invariant of the protocol is proved by
cases on it.

The worlds a call passes through are named after the step just done: `journaled` (the
request is in `intents`), `opened` (the edit has changed the live object), `pended` (the
response is recorded as pending), `finished` (the engine's last step is over).

## Proof shape

A call is followed step by step. `Mutation.lookedUp` covers it up to the look-up of an outcome,
`Edit.run_cases` covers the edit, and `Mutation.ran_execute` joins the two with the outcome's
record; `Mutation.ran` is their sum. After it no proof opens `RunMutation` again. The lemmas of
the last section turn `Mutation.Ran` round: given how far a call got, they say which constructors
are left.
-/

namespace Daichod

variable [Wire]

namespace Mutation

/-- The intent row of a call. -/
def intentRow (m : Mutation) (fate : Fate) : Intent :=
  { mutationId := m.mutationId, rpcName := m.rpcName, payload := m.payload,
    payloadSha256 := Wire.sha256 m.payload, journaledAtUtc := fate.now, pendingResponse := none }

/-- Step 1 is done. -/
def journaled (m : Mutation) (fate : Fate) (w : World) : World :=
  w.setJournal (w.journal.insertIntent (m.intentRow fate))

/-- The row of `applied` a call writes. -/
def outcomeRow (m : Mutation) (fate : Fate) (outcome : Outcome Bytes) : Applied :=
  Journal.outcomeRow m.mutationId outcome fate.now

end Mutation

namespace Edit

variable {m : Mutation}

/-- The live object is changed. -/
def opened (edit : Edit m.Response) (fate : Fate) (w : World) : World :=
  (m.journaled fate w).onStore edit.opening

/-- Step 3a is done. -/
def pended (edit : Edit m.Response) (fate : Fate) (w : World) : World :=
  (edit.opened fate w).setJournal
    ((m.journaled fate w).journal.updatePending m.mutationId
      (some (m.codec.serialize edit.response)))

/-- All is ready for the engine's last step. -/
def marked (edit : Edit m.Response) (fate : Fate) (w : World) : World :=
  (edit.pended fate w).onStore edit.marking

/-- The engine's last step is over, accepted or declined. -/
def finished (edit : Edit m.Response) (fate : Fate) (w : World) : World :=
  match fate.finalStep with
  | .declines error =>
    { (edit.marked fate w).onStore edit.rollback with
      session := (edit.marked fate w).session.map ({ · with error := some error }) }
  | _ => (edit.marked fate w).onStore edit.commit

end Edit

section Worlds

variable {m : Mutation} {fate : Fate} {w : World}

/-! The worlds of a call differ from the one it starts in only where their names say so. -/

@[simp] theorem Mutation.journaled_store : (m.journaled fate w).store = w.store := rfl
@[simp] theorem Mutation.journaled_session : (m.journaled fate w).session = w.session := rfl
@[simp] theorem Mutation.journaled_book : (m.journaled fate w).book = w.book := rfl
@[simp] theorem Mutation.journaled_config : (m.journaled fate w).config = w.config := rfl

/-- Journaling a request touches no outcome. -/
theorem Mutation.resolved_journaled (m : Mutation) (fate : Fate) (w : World) (id : String) :
    (m.journaled fate w).journal.resolved id = w.journal.resolved id :=
  Journal.resolved_insertIntent _ _ _

/-- The journaled request has its row. -/
theorem Mutation.intent_journaled (m : Mutation) (fate : Fate) (w : World) :
    ∃ i, (m.journaled fate w).journal.intent m.mutationId = some i := by
  have h := Journal.intent_insertIntent w.journal (m.intentRow fate) m.mutationId
  exact ⟨_, h.trans (if_pos (show (m.intentRow fate).mutationId = m.mutationId from rfl))⟩

/-- The journal at the end of an edit: the request's row, with its pending response. The engine's
part of the edit does not touch the journal. -/
theorem Edit.finished_journal (edit : Edit m.Response) :
    (edit.finished fate w).journal
      = (m.journaled fate w).journal.updatePending m.mutationId
          (some (m.codec.serialize edit.response)) := by
  unfold Edit.finished
  split <;> rfl

/-- An edit touches no outcome. -/
theorem Edit.resolved_finished (edit : Edit m.Response) (fate : Fate) (w : World)
    (id : String) :
    (edit.finished fate w).journal.resolved id = w.journal.resolved id := by
  rw [edit.finished_journal, Journal.resolved_updatePending, Mutation.resolved_journaled]

/-- Once its edit is over, a call's request is in `intents`. -/
theorem Edit.intent_finished (edit : Edit m.Response) (fate : Fate) (w : World) :
    ∃ i, (edit.finished fate w).journal.intent m.mutationId = some i := by
  obtain ⟨i, hi⟩ := Mutation.intent_journaled m fate w
  exact ⟨_, by rw [edit.finished_journal, Journal.intent_updatePending, if_pos rfl, hi]; rfl⟩

end Worlds

/-! ### How a call can end

`Mutation.ReadsOutcome` says that a call gets past the look-up, `Mutation.Applies` that it finds
nothing there, and `Mutation.Reaches` that its edit gets to the engine's last step. Each contains
the one before it. -/

variable [Engine]

/-- The engine's last step returns to the handler. -/
def FinalStep.Returns : FinalStep → Prop
  | .commits | .declines _ => True
  | .throwsBefore _ | .throwsAfter _ => False

omit [Wire] [Engine] in
/-- A last step that commits returns to the handler. -/
theorem FinalStep.returns_of_commits {final : FinalStep} (h : final = .commits) :
    final.Returns := by
  rw [h]
  trivial

omit [Wire] [Engine] in
/-- A last step that commits does not decline. -/
theorem FinalStep.ne_declines_of_commits {final : FinalStep} (h : final = .commits)
    (error : SessionError) : final ≠ .declines error := by
  rw [h]
  simp

/-- The call gets as far as asking the handler to apply the request. -/
structure Mutation.Applies (m : Mutation) (fate : Fate) (w : World) : Prop where
  id_valid : validateMutationId m.mutationId = .ok ()
  intent : fate.recordIntentFault = none
  alive : fate.crashAt ≠ some .afterIntent
  read : fate.getOutcomeFault = none
  unresolved : w.journal.resolved m.mutationId = none

/-- Nothing stops the call before it has read what is on record for its mutation id. -/
structure Mutation.ReadsOutcome (m : Mutation) (fate : Fate) : Prop where
  id_valid : validateMutationId m.mutationId = .ok ()
  intent : fate.recordIntentFault = none
  alive : fate.crashAt ≠ some .afterIntent
  read : fate.getOutcomeFault = none

omit [Engine] in
/-- A call that gets past the look-up, with no outcome on record, applies. -/
theorem Mutation.ReadsOutcome.applies {m : Mutation} {fate : Fate} {w : World}
    (h : m.ReadsOutcome fate) (hnone : w.journal.resolved m.mutationId = none) :
    m.Applies fate w := ⟨h.id_valid, h.intent, h.alive, h.read, hnone⟩

/-- How steps 1 and 2 can end. -/
inductive Mutation.LookedUp (m : Mutation) (fate : Fate) (w : World) :
    EStateM.Result Exn World (Option (Outcome Bytes)) → Prop
  /-- The mutation id is not a UUID. -/
  | invalid {e : ShimError} (hid : validateMutationId m.mutationId = .error e) :
      LookedUp m fate w (.error (.shim e) w)
  /-- Step 1 failed. -/
  | intentFault {e : SqliteError} (hfault : fate.recordIntentFault = some e) :
      LookedUp m fate w (.error (.shim ⟨.engineError, "journal: " ++ e.message, e.context⟩) w)
  | killedAfterIntent (hcrash : fate.crashAt = some .afterIntent) :
      LookedUp m fate w (.error .killed (m.journaled fate w))
  /-- Step 2 failed. -/
  | unread {e : ShimError} (he : e.OfJournal)
      (hfault : fate.getOutcomeFault ≠ none ∨ ∃ row, w.journal.resolved m.mutationId = some row ∧
        Wire.outcome.parse row.outcome = none) :
      LookedUp m fate w (.error (.shim e) (m.journaled fate w))
  | unresolved (hreads : m.ReadsOutcome fate)
      (hnone : w.journal.resolved m.mutationId = none) :
      LookedUp m fate w (.ok none (m.journaled fate w))
  | resolved {row : Applied} {recorded : Outcome Bytes} (hreads : m.ReadsOutcome fate)
      (hrow : w.journal.resolved m.mutationId = some row)
      (hparse : Wire.outcome.parse row.outcome = some recorded) :
      LookedUp m fate w (.ok (some recorded) (m.journaled fate w))

/-- The call gets as far as the engine's last step of the given edit. -/
structure Mutation.Reaches (m : Mutation) (fate : Fate) (w : World) (edit : Edit m.Response) :
    Prop extends m.Applies fate w where
  valid : m.validated fate w = .ok edit
  pending : fate.recordPendingFault = none
  alive' : fate.crashAt ≠ some .afterPending

/-- How a mutating call can end. -/
inductive Mutation.Ran (m : Mutation) (fate : Fate) (w : World) :
    EStateM.Result Exn World m.Response → Prop
  /-- The mutation id is not a UUID. -/
  | invalid {e : ShimError} (hid : validateMutationId m.mutationId = .error e) :
      Ran m fate w (.error (.shim e) w)
  /-- Step 1 failed. -/
  | intentFault {e : SqliteError} (hfault : fate.recordIntentFault = some e) :
      Ran m fate w (.error (.shim ⟨.engineError, "journal: " ++ e.message, e.context⟩) w)
  | killedAfterIntent (hcrash : fate.crashAt = some .afterIntent) :
      Ran m fate w (.error .killed (m.journaled fate w))
  /-- Step 2 failed. -/
  | outcomeUnread {e : ShimError} (hcode : e.code = .engineError)
      (hfault : fate.getOutcomeFault ≠ none ∨ ∃ row, w.journal.resolved m.mutationId = some row ∧
        Wire.outcome.parse row.outcome = none) :
      Ran m fate w (.error (.shim e) (m.journaled fate w))
  /-- Step 2 found an outcome. -/
  | replayed {row : Applied} {recorded : Outcome Bytes}
      (hrow : w.journal.resolved m.mutationId = some row)
      (hparse : Wire.outcome.parse row.outcome = some recorded) :
      Ran m fate w (liftValid (m.call.replay recorded) (m.journaled fate w))
  /-- Validation threw what is not recorded, or never ended. -/
  | refused {e : Exn} (happlies : m.Applies fate w) (hvalid : m.validated fate w = .error e)
      (hcode : ∀ s, e = .shim s → isDeterministicVerdict s.code = false) :
      Ran m fate w (.error e (m.journaled fate w))
  /-- Validation gave a verdict, and recording it failed. -/
  | verdictUnrecorded {s e : ShimError} (happlies : m.Applies fate w)
      (hvalid : m.validated fate w = .error (.shim s))
      (hcode : isDeterministicVerdict s.code = true) (hfault : fate.recordOutcomeFault ≠ none)
      (he : e.code = .engineError) :
      Ran m fate w (.error (.shim e) (m.journaled fate w))
  /-- Validation gave a verdict, which is recorded. -/
  | verdict {s : ShimError} {j : Journal} (happlies : m.Applies fate w)
      (hvalid : m.validated fate w = .error (.shim s))
      (hcode : isDeterministicVerdict s.code = true)
      (hj : (m.journaled fate w).journal.insertApplied
        (m.outcomeRow fate (m.call.failure s)) = some j) :
      Ran m fate w (.error (.shim s) ((m.journaled fate w).setJournal j))
  /-- Step 3a failed. -/
  | pendingFault {edit : Edit m.Response} {e : SqliteError} (happlies : m.Applies fate w)
      (hvalid : m.validated fate w = .ok edit) (hfault : fate.recordPendingFault = some e) :
      Ran m fate w
        (.error (.shim ⟨.engineError, "journal: " ++ e.message, e.context⟩) (edit.opened fate w))
  | killedAfterPending {edit : Edit m.Response} (happlies : m.Applies fate w)
      (hvalid : m.validated fate w = .ok edit) (hpending : fate.recordPendingFault = none)
      (hcrash : fate.crashAt = some .afterPending) :
      Ran m fate w (.error .killed (edit.pended fate w))
  | threwBefore {edit : Edit m.Response} {what : String} (hreach : m.Reaches fate w edit)
      (hfinal : fate.finalStep = .throwsBefore what) :
      Ran m fate w (.error (.other what) (edit.marked fate w))
  | threwAfter {edit : Edit m.Response} {what : String} (hreach : m.Reaches fate w edit)
      (hfinal : fate.finalStep = .throwsAfter what) :
      Ran m fate w (.error (.other what) (edit.finished fate w))
  | killedAfterApply {edit : Edit m.Response} (hreach : m.Reaches fate w edit)
      (hfinal : fate.finalStep.Returns) (hcrash : fate.crashAt = some .afterApply) :
      Ran m fate w (.error .killed (edit.finished fate w))
  /-- Step 4 failed. -/
  | outcomeFault {edit : Edit m.Response} {e : ShimError} (hreach : m.Reaches fate w edit)
      (hfinal : fate.finalStep.Returns) (halive : fate.crashAt ≠ some .afterApply)
      (hfault : fate.recordOutcomeFault ≠ none) (he : e.code = .engineError) :
      Ran m fate w (.error (.shim e) (edit.finished fate w))
  | killedAfterOutcome {edit : Edit m.Response} {j : Journal} (hreach : m.Reaches fate w edit)
      (hfinal : fate.finalStep.Returns) (hfault : fate.recordOutcomeFault = none)
      (hj : (edit.finished fate w).journal.insertApplied
        (m.outcomeRow fate (m.call.success edit.response)) = some j)
      (hcrash : fate.crashAt = some .afterOutcome) :
      Ran m fate w (.error .killed ((edit.finished fate w).setJournal j))
  | returned {edit : Edit m.Response} {j : Journal} (hreach : m.Reaches fate w edit)
      (hfinal : fate.finalStep.Returns) (halive : fate.crashAt ≠ some .afterApply)
      (hfault : fate.recordOutcomeFault = none)
      (hj : (edit.finished fate w).journal.insertApplied
        (m.outcomeRow fate (m.call.success edit.response)) = some j) :
      Ran m fate w (.ok edit.response ((edit.finished fate w).setJournal j))

/-! ### A call ends in one of these ways

First the part up to the look-up, then the edit, then the whole. A fault is looked at in the order
in which the call would meet it, so that each case is reached with all earlier steps known to have
gone well. -/

section Steps

variable {m : Mutation} {fate : Fate} {w : World}

/-- What the edit itself does, up to the end of the engine's last step. -/
theorem Edit.run_cases (edit : Edit m.Response) (happlies : m.Applies fate w)
    (hvalid : m.validated fate w = .ok edit) :
    (∃ e, fate.recordPendingFault = some e ∧
      edit.run fate (m.call.recordPending fate) (m.journaled fate w)
        = .error (.shim ⟨.engineError, "journal: " ++ e.message, e.context⟩)
            (edit.opened fate w)) ∨
    (fate.recordPendingFault = none ∧ fate.crashAt = some .afterPending ∧
      edit.run fate (m.call.recordPending fate) (m.journaled fate w)
        = .error .killed (edit.pended fate w)) ∨
    (m.Reaches fate w edit ∧ edit.run fate (m.call.recordPending fate) (m.journaled fate w)
      = match fate.finalStep with
        | .commits | .declines _ => .ok edit.response (edit.finished fate w)
        | .throwsBefore what => .error (.other what) (edit.marked fate w)
        | .throwsAfter what => .error (.other what) (edit.finished fate w)) := by
  -- in all three kinds of edit `record_pending` is followed by marking and the last step
  have hopen : edit.run fate (m.call.recordPending fate) (m.journaled fate w)
      = (m.call.recordPending fate edit.response >>= fun _ => onStore edit.marking >>= fun _ =>
          finalStep fate edit.commit edit.rollback >>= fun _ => pure edit.response)
          (edit.opened fate w) := rfl
  cases hfault : fate.recordPendingFault with
  | some e =>
    refine Or.inl ⟨e, rfl, ?_⟩
    rw [hopen]
    refine run_bind_error ?_
    rw [MutatingCall.recordPending, hfault]
    rfl
  | none =>
    right
    have hpend : (Journal.recordPending fate.recordPendingFault m.mutationId
        (m.codec.serialize edit.response)) (edit.opened fate w) = .ok () (edit.pended fate w) := by
      rw [hfault]
      rfl
    by_cases hcrash : fate.crashAt = some .afterPending
    · refine Or.inl ⟨rfl, hcrash, ?_⟩
      rw [hopen]
      refine run_bind_error ?_
      refine (run_bind_ok hpend).trans ?_
      simp [crashPointMaybe, hcrash]
    · refine Or.inr ⟨⟨happlies, hvalid, hfault, hcrash⟩, ?_⟩
      have hrec : m.call.recordPending fate edit.response (edit.opened fate w)
          = .ok () (edit.pended fate w) := by
        refine (run_bind_ok hpend).trans ?_
        simp [crashPointMaybe, hcrash]
      rw [hopen, run_bind_ok hrec, run_bind_ok (run_onStore _ _), run_bind]
      -- the edit has reached its last step, whose four ends are the four worlds of `Edit.finished`
      unfold finalStep Edit.finished
      cases fate.finalStep <;> rfl

/-- The failure path of step 3. -/
theorem Mutation.ran_recordFailure (happlies : m.Applies fate w) {e : Exn}
    (hvalid : m.validated fate w = .error e) :
    m.Ran fate w (m.call.recordFailure fate e (m.journaled fate w)) := by
  have refused (hcode : ∀ s, e = .shim s → isDeterministicVerdict s.code = false) :
      m.Ran fate w (.error e (m.journaled fate w)) := .refused happlies hvalid hcode
  cases e with
  | shim s =>
    unfold MutatingCall.recordFailure
    by_cases hcode : isDeterministicVerdict s.code = true
    · obtain ⟨i, hi⟩ := Mutation.intent_journaled m fate w
      have hnone := (Mutation.resolved_journaled m fate w _).trans happlies.unresolved
      simp only [hcode, if_true]
      rcases Journal.recordOutcome_cases m.call.mutationId fate.recordOutcomeFault
        (m.call.failure s) fate.now hi hnone with ⟨hfault, e, he, hrun⟩ | ⟨hfault, j, hj, hrun⟩
      · rw [run_bind_error hrun]
        exact .verdictUnrecorded happlies hvalid hcode hfault he
      · rw [run_bind_ok hrun]
        exact .verdict happlies hvalid hcode hj
    · simp only [hcode]
      exact refused fun s' hs => by cases hs; simpa using hcode
  | queueFull => exact refused (by simp)
  | workerStopped => exact refused (by simp)
  | other what => exact refused (by simp)
  | killed => exact refused (by simp)

/-- Step 4, after the engine's last step. -/
theorem Mutation.ran_recordSuccess {edit : Edit m.Response} (hreach : m.Reaches fate w edit)
    (hfinal : fate.finalStep.Returns) (halive : fate.crashAt ≠ some .afterApply) :
    m.Ran fate w (m.call.recordSuccess fate edit.response (edit.finished fate w)) := by
  unfold MutatingCall.recordSuccess
  obtain ⟨i, hi⟩ := edit.intent_finished fate w
  have hnone := (edit.resolved_finished fate w _).trans hreach.unresolved
  rcases Journal.recordOutcome_cases m.call.mutationId fate.recordOutcomeFault
    (m.call.success edit.response) fate.now hi hnone with ⟨hfault, e, he, hrun⟩ | ⟨hfault, j, hj, hrun⟩
  · rw [run_bind_error hrun]
    exact .outcomeFault hreach hfinal halive hfault he
  · rw [run_bind_ok hrun]
    by_cases hcrash : fate.crashAt = some .afterOutcome
    · have hrun : crashPointMaybe fate .afterOutcome ((edit.finished fate w).setJournal j)
          = .error .killed ((edit.finished fate w).setJournal j) := by
        simp [crashPointMaybe, hcrash]
      rw [run_bind_error hrun]
      exact .killedAfterOutcome hreach hfinal hfault hj hcrash
    · have hrun : crashPointMaybe fate .afterOutcome ((edit.finished fate w).setJournal j)
          = .ok () ((edit.finished fate w).setJournal j) := by
        simp [crashPointMaybe, hcrash]
      rw [run_bind_ok hrun]
      exact .returned hreach hfinal halive hfault hj

/-- Steps 3 and 4. -/
theorem Mutation.ran_execute (happlies : m.Applies fate w) :
    m.Ran fate w (m.call.execute fate (m.journaled fate w)) := by
  have happly : m.call.apply fate (m.call.recordPending fate) (m.journaled fate w)
      = runPlan fate (m.call.recordPending fate) (m.validated fate w) (m.journaled fate w) :=
    m.apply_eq fate _ _
  cases hvalid : m.validated fate w with
  | error e =>
    rw [hvalid] at happly
    rw [MutatingCall.execute_of_error (run_bind_error happly)]
    exact ran_recordFailure happlies hvalid
  | ok edit =>
    rw [hvalid] at happly
    rcases edit.run_cases happlies hvalid with ⟨e, hfault, hrun⟩ | ⟨hpending, hcrash, hrun⟩ |
      ⟨hreach, hrun⟩
    · rw [MutatingCall.execute_of_error (run_bind_error (happly.trans hrun)),
        MutatingCall.recordFailure_of_not_verdict rfl]
      exact .pendingFault happlies hvalid hfault
    · rw [MutatingCall.execute_of_error (run_bind_error (happly.trans hrun))]
      exact .killedAfterPending happlies hvalid hpending hcrash
    -- both ends that return to the handler, a commit and a decline, go on to record the outcome
    · have returns (hfinal : fate.finalStep.Returns)
          (hrun : edit.run fate (m.call.recordPending fate) (m.journaled fate w)
            = .ok edit.response (edit.finished fate w)) :
          m.Ran fate w (m.call.execute fate (m.journaled fate w)) := by
        have hattempt : m.call.attempt fate (m.journaled fate w)
            = (crashPointMaybe fate .afterApply >>= fun _ => pure edit.response)
                (edit.finished fate w) := run_bind_ok (happly.trans hrun)
        by_cases hcrash : fate.crashAt = some .afterApply
        · have hkilled : m.call.attempt fate (m.journaled fate w)
              = .error .killed (edit.finished fate w) := by
            rw [hattempt, crashPointMaybe, if_pos hcrash]
            rfl
          rw [MutatingCall.execute_of_error hkilled]
          exact .killedAfterApply hreach hfinal hcrash
        · have halive : m.call.attempt fate (m.journaled fate w)
              = .ok edit.response (edit.finished fate w) := by
            rw [hattempt, crashPointMaybe, if_neg hcrash]
            rfl
          rw [MutatingCall.execute_of_ok halive]
          exact ran_recordSuccess hreach hfinal hcrash
      cases hfinal : fate.finalStep with
      | commits =>
        rw [hfinal] at hrun
        exact returns (by rw [hfinal]; trivial) hrun
      | declines e =>
        rw [hfinal] at hrun
        exact returns (by rw [hfinal]; trivial) hrun
      | throwsBefore what =>
        rw [hfinal] at hrun
        rw [MutatingCall.execute_of_error (run_bind_error (happly.trans hrun))]
        exact .threwBefore hreach hfinal
      | throwsAfter what =>
        rw [hfinal] at hrun
        rw [MutatingCall.execute_of_error (run_bind_error (happly.trans hrun))]
        exact .threwAfter hreach hfinal

/-- **Steps 1 and 2 end in one of the listed ways.** -/
theorem Mutation.lookedUp (m : Mutation) (fate : Fate) (w : World) :
    m.LookedUp fate w (m.call.lookUp fate w) := by
  unfold MutatingCall.lookUp
  cases hid : validateMutationId m.mutationId with
  | error e =>
    have hrun : liftValid (validateMutationId m.call.mutationId) w = .error (.shim e) w := by
      show liftValid (validateMutationId m.mutationId) w = _
      rw [hid]
      rfl
    rw [run_bind_error hrun]
    exact .invalid hid
  | ok u =>
    have hrun : liftValid (validateMutationId m.call.mutationId) w = .ok () w := by
      show liftValid (validateMutationId m.mutationId) w = _
      rw [hid]
      rfl
    rw [run_bind_ok hrun]
    cases hfault : fate.recordIntentFault with
    | some e =>
      have hintent : Journal.recordIntent (some e) m.call.mutationId m.call.rpcName m.call.request
          fate.now w = .error (.shim ⟨.engineError, "journal: " ++ e.message, e.context⟩) w := rfl
      rw [run_bind_error hintent]
      exact .intentFault hfault
    | none =>
      have hintent : Journal.recordIntent none m.call.mutationId m.call.rpcName m.call.request
          fate.now w = .ok () (m.journaled fate w) := rfl
      rw [run_bind_ok hintent]
      by_cases hcrash : fate.crashAt = some .afterIntent
      · have hrun : crashPointMaybe fate .afterIntent (m.journaled fate w)
            = .error .killed (m.journaled fate w) := by simp [crashPointMaybe, hcrash]
        rw [run_bind_error hrun]
        exact .killedAfterIntent hcrash
      · have hrun : crashPointMaybe fate .afterIntent (m.journaled fate w)
            = .ok () (m.journaled fate w) := by simp [crashPointMaybe, hcrash]
        rw [run_bind_ok hrun]
        -- a look-up that came back was not faulted, whatever it found
        have hread : ∀ {found : Option (Outcome Bytes)}, Journal.getOutcome fate.getOutcomeFault
            m.call.mutationId (m.journaled fate w) = .ok found (m.journaled fate w) →
            m.ReadsOutcome fate := by
          intro found hget
          refine ⟨hid, hfault, hcrash, ?_⟩
          cases hg : fate.getOutcomeFault with
          | none => rfl
          | some e =>
            rw [hg, Journal.getOutcome, Journal.run_statement_fault] at hget
            cases hget
        rcases Journal.getOutcome_cases (w := m.journaled fate w) m.call.mutationId
          fate.getOutcomeFault with ⟨e, he, hunread, hget⟩ | ⟨hnone, hget⟩ |
            ⟨row, recorded, hrow, hparse, hget⟩
        -- the call's own request is no outcome, so what is found was there before the call
        · rw [resolved_journaled] at hunread
          rw [hget]
          exact .unread he hunread
        · rw [resolved_journaled] at hnone
          rw [hget]
          exact .unresolved (hread hget) hnone
        · rw [resolved_journaled] at hrow
          rw [hget]
          exact .resolved (hread hget) hrow hparse

/-- A call that gets to read the journal finds what is on record. -/
theorem Mutation.ReadsOutcome.lookUp (h : m.ReadsOutcome fate)
    (hparse : ∀ row, w.journal.resolved m.mutationId = some row →
      Wire.outcome.parse row.outcome ≠ none) :
    m.call.lookUp fate w
      = .ok (w.journal.outcome? m.mutationId) (m.journaled fate w) := by
  have hlooked := m.lookedUp fate w
  generalize m.call.lookUp fate w = found at hlooked
  cases hlooked with
  | invalid hid => rw [h.id_valid] at hid; cases hid
  | intentFault hfault => rw [h.intent] at hfault; cases hfault
  | killedAfterIntent hcrash => exact absurd hcrash h.alive
  | unread he hunread =>
    rcases hunread with hfault | ⟨row, hrow, hnone⟩
    · exact absurd h.read hfault
    · exact absurd hnone (hparse row hrow)
  | unresolved hreads hnone => rw [Journal.outcome?, hnone]; rfl
  | resolved hreads hrow hrecorded => rw [Journal.outcome?, hrow, Option.bind_some, hrecorded]

/-- A call that has read an outcome is answered from it. -/
theorem Mutation.run_of_recorded (h : m.ReadsOutcome fate) {recorded : Outcome Bytes}
    (hrecorded : w.journal.Recorded m.mutationId recorded) :
    m.run fate w = liftValid (m.call.replay recorded) (m.journaled fate w) := by
  have hlookUp := h.lookUp (w := w) fun row hrow => by
    obtain ⟨row', hrow', hparse⟩ := hrecorded
    rw [Option.some.inj (hrow.symm.trans hrow'), hparse]
    simp
  unfold Mutation.run
  rw [MutatingCall.run_eq, run_bind, hlookUp, Journal.recorded_iff.mp hrecorded]
  rfl

/-- **Every call ends in one of the listed ways.** -/
theorem Mutation.ran (m : Mutation) (fate : Fate) (w : World) : m.Ran fate w (m.run fate w) := by
  unfold Mutation.run
  rw [MutatingCall.run_eq, run_bind]
  have hlooked := m.lookedUp fate w
  generalize m.call.lookUp fate w = found at hlooked
  cases hlooked with
  | invalid hid => exact .invalid hid
  | intentFault hfault => exact .intentFault hfault
  | killedAfterIntent hcrash => exact .killedAfterIntent hcrash
  | unread he hunread => exact .outcomeUnread he.1 hunread
  | unresolved hreads hnone => exact ran_execute (hreads.applies hnone)
  | resolved hreads hrow hparse => exact .replayed hrow hparse

end Steps

/-- The outcomes a call records: its success, or the verdict it throws. -/
inductive Mutation.Outcomes (m : Mutation) : Outcome Bytes → Prop
  | success (response : m.Response) : Outcomes m (m.call.success response)
  | failure {s : ShimError} (hcode : isDeterministicVerdict s.code = true) :
      Outcomes m (m.call.failure s)

/-- **What a call does to the outcomes on record**: nothing, or it adds its own. -/
theorem Mutation.Ran.resolved {m : Mutation} {fate : Fate} {w : World}
    {r : EStateM.Result Exn World m.Response} (h : m.Ran fate w r) :
    (∀ id, (worldAfter r).journal.resolved id = w.journal.resolved id) ∨
    ∃ (j : Journal) (outcome : Outcome Bytes),
      (∀ id, j.resolved id = w.journal.resolved id) ∧ m.Outcomes outcome ∧
      j.insertApplied (m.outcomeRow fate outcome) = some (worldAfter r).journal := by
  have hjournaled := m.resolved_journaled fate w
  have hpended : ∀ (edit : Edit m.Response) id,
      (edit.pended fate w).journal.resolved id = w.journal.resolved id := by
    intro edit id
    exact (Journal.resolved_updatePending ..).trans (hjournaled id)
  -- a success is recorded on a journal that has the request and its pending response besides
  have succeeded : ∀ {edit : Edit m.Response} {j : Journal},
      (edit.finished fate w).journal.insertApplied
        (m.outcomeRow fate (m.call.success edit.response)) = some j →
      ∃ (j' : Journal) (outcome : Outcome Bytes),
        (∀ id, j'.resolved id = w.journal.resolved id) ∧ m.Outcomes outcome ∧
        j'.insertApplied (m.outcomeRow fate outcome) = some j := by
    intro edit j hj
    exact ⟨_, _, edit.resolved_finished fate w, .success edit.response, hj⟩
  cases h with
  | invalid hid => exact Or.inl fun _ => rfl
  | intentFault hfault => exact Or.inl fun _ => rfl
  | killedAfterIntent hcrash => exact Or.inl hjournaled
  | outcomeUnread hcode hfault => exact Or.inl hjournaled
  | replayed hrow hparse =>
    left
    intro id
    cases m.call.replay _ with
    | ok response => exact hjournaled id
    | error e => exact hjournaled id
  | refused happlies hvalid hcode => exact Or.inl hjournaled
  | verdictUnrecorded happlies hvalid hcode hfault he => exact Or.inl hjournaled
  | verdict happlies hvalid hcode hj => exact Or.inr ⟨_, _, hjournaled, .failure hcode, hj⟩
  | pendingFault happlies hvalid hfault => exact Or.inl hjournaled
  | killedAfterPending happlies hvalid hpending hcrash => exact Or.inl (hpended _)
  | threwBefore hreach hfinal => exact Or.inl (hpended _)
  | threwAfter hreach hfinal => exact Or.inl (Edit.resolved_finished _ fate w)
  | killedAfterApply hreach hfinal hcrash => exact Or.inl (Edit.resolved_finished _ fate w)
  | outcomeFault hreach hfinal halive hfault he => exact Or.inl (Edit.resolved_finished _ fate w)
  | killedAfterOutcome hreach hfinal hfault hj hcrash => exact Or.inr (succeeded hj)
  | returned hreach hfinal halive hfault hj => exact Or.inr (succeeded hj)

/-- **What a call does to the session**: nothing, unless the engine reports an error on it. -/
theorem Mutation.Ran.session {m : Mutation} {fate : Fate} {w : World}
    {r : EStateM.Result Exn World m.Response} (h : m.Ran fate w r) :
    (worldAfter r).session = w.session ∨
      ∃ error, (worldAfter r).session = w.session.map ({ · with error := some error }) := by
  have finished : ∀ edit : Edit m.Response, (edit.finished fate w).session = w.session ∨
      ∃ error, (edit.finished fate w).session = w.session.map ({ · with error := some error }) := by
    intro edit
    unfold Edit.finished
    split
    · next error hfinal => exact Or.inr ⟨error, rfl⟩
    · exact Or.inl rfl
  cases h with
  | replayed hrow hparse =>
    cases m.call.replay _ with
    | ok response => exact Or.inl rfl
    | error e => exact Or.inl rfl
  | threwAfter hreach hfinal => exact finished _
  | killedAfterApply hreach hfinal hcrash => exact finished _
  | outcomeFault hreach hfinal halive hfault he => exact finished _
  | killedAfterOutcome hreach hfinal hfault hj hcrash => exact finished _
  | returned hreach hfinal halive hfault hj => exact finished _
  | _ => exact Or.inl rfl

/-! ### Calls whose course is known

Determinacy: a call whose checks pass and which meets no fault up to some point ends in one of the
few constructors behind that point. -/

section Courses

variable {m : Mutation} {fate : Fate} {w : World} {edit : Edit m.Response}

/-- A call whose request validates, with nothing in its way, reaches the engine's last step. -/
theorem Mutation.Applies.exists_reaches (happlies : m.Applies fate w)
    (hvalid : (m.validated fate w).isOk = true) (hpending : fate.recordPendingFault = none)
    (halive : fate.crashAt ≠ some .afterPending) : ∃ edit, m.Reaches fate w edit := by
  cases hv : m.validated fate w with
  | error e => rw [hv] at hvalid; cases hvalid
  | ok edit => exact ⟨edit, ⟨happlies, hv, hpending, halive⟩⟩

/-- A call whose last step returns is killed there, or fails to record its success, or
records it. -/
theorem Mutation.run_of_returns (hreach : m.Reaches fate w edit)
    (hfinal : fate.finalStep.Returns) :
    (fate.crashAt = some .afterApply ∧ m.run fate w = .error .killed (edit.finished fate w)) ∨
    (fate.crashAt ≠ some .afterApply ∧ fate.recordOutcomeFault ≠ none ∧
      ∃ e : ShimError, e.code = .engineError ∧
        m.run fate w = .error (.shim e) (edit.finished fate w)) ∨
    (fate.crashAt ≠ some .afterApply ∧ fate.recordOutcomeFault = none ∧
      ∃ j, (edit.finished fate w).journal.insertApplied
          (m.outcomeRow fate (m.call.success edit.response)) = some j ∧
        (m.run fate w = .error .killed ((edit.finished fate w).setJournal j) ∨
          m.run fate w = .ok edit.response ((edit.finished fate w).setJournal j))) := by
  have hran := m.ran fate w
  generalize m.run fate w = r at hran ⊢
  have same : ∀ {edit' : Edit m.Response}, m.validated fate w = .ok edit' → edit' = edit :=
    fun h => Except.ok.inj (h.symm.trans hreach.valid)
  -- every constructor up to the last step contradicts one of the fields of `hreach`
  cases hran with
  | invalid hid => rw [hreach.id_valid] at hid; cases hid
  | intentFault hfault => rw [hreach.intent] at hfault; cases hfault
  | killedAfterIntent hcrash => exact absurd hcrash hreach.alive
  | outcomeUnread hcode hfault =>
    rcases hfault with hfault | ⟨row, hrow, -⟩
    · exact absurd hreach.read hfault
    · rw [hreach.unresolved] at hrow
      cases hrow
  | replayed hrow hparse => rw [hreach.unresolved] at hrow; cases hrow
  | refused happlies hvalid hcode => rw [hreach.valid] at hvalid; cases hvalid
  | verdictUnrecorded happlies hvalid hcode hfault he =>
    rw [hreach.valid] at hvalid; cases hvalid
  | verdict happlies hvalid hcode hj => rw [hreach.valid] at hvalid; cases hvalid
  | pendingFault happlies hvalid hfault => rw [hreach.pending] at hfault; cases hfault
  | killedAfterPending happlies hvalid hpending hcrash => exact absurd hcrash hreach.alive'
  | threwBefore hreach' hthrew => rw [hthrew] at hfinal; exact hfinal.elim
  | threwAfter hreach' hthrew => rw [hthrew] at hfinal; exact hfinal.elim
  | killedAfterApply hreach' _ hcrash =>
    obtain rfl := same hreach'.valid
    exact Or.inl ⟨hcrash, rfl⟩
  | outcomeFault hreach' _ halive hfault he =>
    obtain rfl := same hreach'.valid
    exact Or.inr (Or.inl ⟨halive, hfault, _, he, rfl⟩)
  | killedAfterOutcome hreach' _ hfault hj hcrash =>
    obtain rfl := same hreach'.valid
    exact Or.inr (Or.inr ⟨by simp [hcrash], hfault, _, hj, Or.inl rfl⟩)
  | returned hreach' _ halive hfault hj =>
    obtain rfl := same hreach'.valid
    exact Or.inr (Or.inr ⟨halive, hfault, _, hj, Or.inr rfl⟩)

/-- A call whose request validates fails to record its response, is killed behind that, or
reaches the engine's last step. -/
theorem Mutation.run_validated (happlies : m.Applies fate w)
    (hvalid : m.validated fate w = .ok edit) :
    (∃ e : SqliteError, fate.recordPendingFault = some e ∧
      m.run fate w
        = .error (.shim ⟨.engineError, "journal: " ++ e.message, e.context⟩) (edit.opened fate w)) ∨
    (fate.recordPendingFault = none ∧ fate.crashAt = some .afterPending ∧
      m.run fate w = .error .killed (edit.pended fate w)) ∨
    m.Reaches fate w edit := by
  have hran := m.ran fate w
  generalize m.run fate w = r at hran ⊢
  have same : ∀ {edit' : Edit m.Response}, m.validated fate w = .ok edit' → edit' = edit :=
    fun h => Except.ok.inj (h.symm.trans hvalid)
  have reached : ∀ {edit' : Edit m.Response}, m.Reaches fate w edit' → m.Reaches fate w edit :=
    fun h => same h.valid ▸ h
  -- the look-up found nothing and validation passed, so only the edit's own ends are left
  cases hran with
  | invalid hid => rw [happlies.id_valid] at hid; cases hid
  | intentFault hfault => rw [happlies.intent] at hfault; cases hfault
  | killedAfterIntent hcrash => exact absurd hcrash happlies.alive
  | outcomeUnread hcode hfault =>
    rcases hfault with hfault | ⟨row, hrow, -⟩
    · exact absurd happlies.read hfault
    · rw [happlies.unresolved] at hrow
      cases hrow
  | replayed hrow hparse => rw [happlies.unresolved] at hrow; cases hrow
  | refused _ hinvalid hcode => rw [hvalid] at hinvalid; cases hinvalid
  | verdictUnrecorded _ hinvalid hcode _ he => rw [hvalid] at hinvalid; cases hinvalid
  | verdict _ hinvalid hcode hj => rw [hvalid] at hinvalid; cases hinvalid
  | pendingFault _ hvalid' hfault =>
    obtain rfl := same hvalid'
    exact Or.inl ⟨_, hfault, rfl⟩
  | killedAfterPending _ hvalid' hpending hcrash =>
    obtain rfl := same hvalid'
    exact Or.inr (Or.inl ⟨hpending, hcrash, rfl⟩)
  | threwBefore hreach _ => exact Or.inr (Or.inr (reached hreach))
  | threwAfter hreach _ => exact Or.inr (Or.inr (reached hreach))
  | killedAfterApply hreach _ _ => exact Or.inr (Or.inr (reached hreach))
  | outcomeFault hreach _ _ _ _ => exact Or.inr (Or.inr (reached hreach))
  | killedAfterOutcome hreach _ _ _ _ => exact Or.inr (Or.inr (reached hreach))
  | returned hreach _ _ _ _ => exact Or.inr (Or.inr (reached hreach))

/-- A call whose pending record cannot be written fails with its edit open. -/
theorem Mutation.run_of_pendingFault (happlies : m.Applies fate w)
    (hvalid : m.validated fate w = .ok edit) (hfault : fate.recordPendingFault ≠ none) :
    ∃ e : ShimError, e.code = .engineError ∧
      m.run fate w = .error (.shim e) (edit.opened fate w) := by
  rcases Mutation.run_validated happlies hvalid with ⟨e, -, hrun⟩ | ⟨hpending, -⟩ | hreach
  · exact ⟨_, rfl, hrun⟩
  · exact absurd hpending hfault
  · exact absurd hreach.pending hfault

/-- Validation does not depend on when the process is killed. -/
theorem Mutation.validated_crashAt (m : Mutation) (fate : Fate) (w : World)
    (point : Option CrashPoint) :
    m.validated { fate with crashAt := point } w = m.validated fate w := by
  cases m <;> rfl

/-- A validated call, killed behind step 3. -/
theorem Mutation.run_killedAfterPending (hreach : m.Reaches fate w edit) :
    m.run { fate with crashAt := some .afterPending } w = .error .killed (edit.pended fate w) := by
  have happlies : m.Applies { fate with crashAt := some .afterPending } w :=
    ⟨hreach.id_valid, hreach.intent, by simp, hreach.read, hreach.unresolved⟩
  rcases Mutation.run_validated happlies ((m.validated_crashAt fate w _).trans hreach.valid) with
    ⟨e, hfault, -⟩ | ⟨-, -, hrun⟩ | hreach'
  · have hpending := hreach.pending
    rw [hfault] at hpending
    cases hpending
  · exact hrun
  · exact absurd rfl hreach'.alive'

/-- A validated call whose last step is accepted, killed behind that. -/
theorem Mutation.run_killedAfterApply (hreach : m.Reaches fate w edit)
    (hcommits : fate.finalStep = .commits) :
    m.run { fate with crashAt := some .afterApply } w = .error .killed (edit.finished fate w) := by
  have hreach' : m.Reaches { fate with crashAt := some .afterApply } w edit :=
    ⟨⟨hreach.id_valid, hreach.intent, by simp, hreach.read, hreach.unresolved⟩,
      (m.validated_crashAt fate w _).trans hreach.valid, hreach.pending, by simp⟩
  rcases Mutation.run_of_returns hreach' (FinalStep.returns_of_commits hcommits) with
    ⟨-, hrun⟩ | ⟨halive, -⟩ | ⟨halive, -⟩
  · exact hrun
  · exact absurd rfl halive
  · exact absurd rfl halive

end Courses

end Daichod
