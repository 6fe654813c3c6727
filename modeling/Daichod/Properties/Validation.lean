import Daichod.Reference

/-!
# Daichod.Properties.Validation

**Validation failures are atomic.** Every check of a handler comes before its first engine
write, and no later step of `RunMutation` throws a verdict: so a call answered with one has
left the world as it was, but for the rows it added to the journal (`verdict_untouched`).

## Proof shape

`Journal.AddsOnly` collects what a call may write to the journal before it ends in a verdict. That
a verdict is thrown by validation, and by nothing behind it, is read off `Mutation.Ran`;
validation writes nothing.
-/

namespace Daichod

section Validation

variable [Wire]

/-- `j'` is `j` with at most one row added to each table, both of mutation `id`, and nothing
pending in the new intent. -/
structure Journal.AddsOnly (id : String) (j j' : Journal) : Prop where
  intents : j'.intents = j.intents ∨ ∃ row : Intent, row.mutationId = id ∧
    row.pendingResponse = none ∧ j'.intents = j.intents ++ [row]
  applied : j'.applied = j.applied ∨ ∃ row : Applied, row.mutationId = id ∧
    j'.applied = j.applied ++ [row]

namespace Journal.AddsOnly

variable {id : String} {j j' : Journal}

/-- Nothing is added. -/
theorem refl (id : String) (j : Journal) : AddsOnly id j j := ⟨Or.inl rfl, Or.inl rfl⟩

/-- A row on record stays as it is, its pending response with it. -/
theorem intent_eq_some (h : AddsOnly id j j') {id' : String} {row : Intent}
    (hrow : j.intent id' = some row) : j'.intent id' = some row := by
  unfold Journal.intent at hrow ⊢
  rcases h.intents with heq | ⟨new, -, -, heq⟩
  · rw [heq, hrow]
  · rw [heq, List.find?_append, hrow]
    rfl

/-- The rows of the other mutations are the same. -/
theorem intent_ne (h : AddsOnly id j j') {id' : String} (hid : id' ≠ id) :
    j'.intent id' = j.intent id' := by
  unfold Journal.intent
  rcases h.intents with heq | ⟨new, hnew, -, heq⟩
  · rw [heq]
  · rw [heq, List.find?_append]
    simp [hnew, Ne.symm hid]

/-- The outcomes of other ids are as they were. -/
theorem resolved_ne (h : AddsOnly id j j') {id' : String} (hid : id' ≠ id) :
    j'.resolved id' = j.resolved id' := by
  unfold Journal.resolved
  rcases h.applied with heq | ⟨new, hnew, heq⟩
  · rw [heq]
  · rw [heq, List.find?_append]
    simp [hnew, Ne.symm hid]

end Journal.AddsOnly

/-- Step 1 adds its row, or finds one. -/
theorem Mutation.journaled_addsOnly (m : Mutation) (fate : Fate) (w : World) :
    w.journal.AddsOnly m.mutationId (m.journaled fate w).journal := by
  refine ⟨?_, Or.inl (Journal.applied_insertIntent _ _)⟩
  cases hrow : w.journal.intent (m.intentRow fate).mutationId with
  | some old =>
    left
    show (w.journal.insertIntent (m.intentRow fate)).intents = _
    rw [Journal.insertIntent_of_some hrow]
  | none => exact Or.inr ⟨m.intentRow fate, rfl, rfl, Journal.intents_insertIntent_of_none hrow⟩

/-- A call of mutation `id` has left nothing but its own rows: the world is the same off the
journal (the book in memory and in the database, the open edits, the session), a pending
response on record is the same, and so is every row of another mutation. -/
structure Untouched (id : String) (w w' : World) : Prop where
  world : w' = w.setJournal w'.journal
  journal : w.journal.AddsOnly id w'.journal
  pending : ∀ row, w.journal.intent id = some row → w'.journal.intent id = some row
  others : ∀ id', id' ≠ id → w'.journal.intent id' = w.journal.intent id' ∧
    w'.journal.resolved id' = w.journal.resolved id'

/-- A world that differs in the journal only, with what was added there. -/
theorem Untouched.of_addsOnly {id : String} {w w' : World} (hworld : w' = w.setJournal w'.journal)
    (h : w.journal.AddsOnly id w'.journal) : Untouched id w w' where
  world := hworld
  journal := h
  pending _ hrow := h.intent_eq_some hrow
  others _ hid := ⟨h.intent_ne hid, h.resolved_ne hid⟩

/-- In particular the book reads as before, now and after a restart. -/
theorem Untouched.book {id : String} {w w' : World} (h : Untouched id w w') :
    w'.book = w.book ∧ w'.durableBook = w.durableBook := by
  rw [h.world]
  exact ⟨rfl, rfl⟩

variable [Engine]

/-- A call that throws a verdict has done steps 1 and 2 and validated, no more. -/
theorem Mutation.Ran.untouched {m : Mutation} {fate : Fate} {w : World} {e : ShimError}
    {w' : World} (h : m.Ran fate w (.error (.shim e) w'))
    (hcode : isDeterministicVerdict e.code = true) : Untouched m.mutationId w w' := by
  have hjournaled : Untouched m.mutationId w (m.journaled fate w) :=
    .of_addsOnly rfl (m.journaled_addsOnly fate w)
  have impossible : ∀ {e : ShimError}, e.code = .engineError →
      isDeterministicVerdict e.code = true → False := by
    intro e he hverdict
    rw [he] at hverdict
    cases hverdict
  generalize hr : (EStateM.Result.error (.shim e) w' : EStateM.Result Exn World m.Response) = r
    at h
  cases h with
  | invalid hid =>
    cases hr
    exact .of_addsOnly rfl (.refl _ _)
  | replayed hrow hparse =>
    cases hreplay : m.call.replay _ with
    | ok response => rw [hreplay] at hr; cases hr
    | error s =>
      rw [hreplay] at hr
      cases hr
      exact hjournaled
  | refused happlies hvalid hnot =>
    cases hr
    rw [hnot e rfl] at hcode
    cases hcode
  | verdict happlies hvalid hverdict hj =>
    cases hr
    -- Only here is an outcome recorded: that of the verdict.
    refine .of_addsOnly rfl ⟨?_, ?_⟩
    · have hintents := (m.journaled_addsOnly fate w).intents
      rw [← (Journal.insertApplied_eq_some.mp hj).2.2.1] at hintents
      exact hintents
    · right
      refine ⟨m.outcomeRow fate (m.call.failure e), rfl,
        (Journal.insertApplied_eq_some.mp hj).2.2.2.trans ?_⟩
      rw [show (m.journaled fate w).journal.applied = w.journal.applied from
        Journal.applied_insertIntent _ _]
  | outcomeUnread he hfault => cases hr; exact (impossible he hcode).elim
  | verdictUnrecorded happlies hvalid hverdict hfault he =>
    cases hr
    exact (impossible he hcode).elim
  | outcomeFault hreach hfinal halive hfault he => cases hr; exact (impossible he hcode).elim
  | intentFault hfault => cases hr; cases hcode
  | pendingFault happlies hvalid hfault => cases hr; cases hcode
  | killedAfterIntent hcrash => cases hr
  | killedAfterPending happlies hvalid hpending hcrash => cases hr
  | threwBefore hreach hfinal => cases hr
  | threwAfter hreach hfinal => cases hr
  | killedAfterApply hreach hfinal hcrash => cases hr
  | killedAfterOutcome hreach hfinal hfault hj hcrash => cases hr
  | returned hreach hfinal halive hfault hj => cases hr

/-- **Validation failures are atomic**: in every state, however the surroundings behave, a
mutating RPC answered with a deterministic verdict has changed nothing but the journal's
rows of its own mutation id. -/
theorem verdict_untouched {m : Mutation} {fate : Fate} {w : World} {grpcCode : GrpcCode}
    {message : String} {detail : ErrorDetail}
    (hreply : replyOf (m.run fate w) = .error (.error grpcCode message detail))
    (hcode : isDeterministicVerdict detail.code = true) :
    Untouched m.mutationId w (worldAfter (m.run fate w)) := by
  have hran := m.ran fate w
  cases hrun : m.run fate w with
  | ok response w' => rw [hrun] at hreply; cases hreply
  | error e w' =>
    rw [hrun] at hran hreply
    cases e with
    | shim s =>
      cases hreply
      exact hran.untouched hcode
    | queueFull => cases hreply; cases hcode
    | workerStopped => cases hreply; cases hcode
    | other what => cases hreply; cases hcode
    | killed => cases hreply

end Validation

section Unbalanced

open Reference

attribute [local instance] Reference.engine Reference.wire

/-- A transaction of one split, one dollar short of balance. -/
def postUnbalanced : Mutation :=
  .postTransaction ⟨⟨mutationId '1'⟩, transaction "" [split 2 100]⟩

/-- The code and the field of what a call threw. -/
def thrown {α : Type} : EStateM.Result Exn World α → Option (ErrorCode × String)
  | .error (.shim e) _ => some (e.code, e.context)
  | _ => none

/-- An unbalanced post is refused. -/
theorem verdict_untouched_postUnbalanced :
    Untouched postUnbalanced.mutationId started.world
      (worldAfter (postUnbalanced.run (calm 16) started.world)) := by
  have hstatus : ∃ message, replyOf (postUnbalanced.run (calm 16) started.world)
      = .error (.error .failedPrecondition message
          ⟨.unbalancedTransaction, message, "transaction.splits"⟩) := by
    have hcode : thrown (postUnbalanced.run (calm 16) started.world)
        = some (.unbalancedTransaction, "transaction.splits") := by decide +kernel
    cases hrun : postUnbalanced.run (calm 16) started.world with
    | ok response w' => rw [hrun] at hcode; cases hcode
    | error e w' =>
      rw [hrun] at hcode
      cases e with
      | shim s =>
        obtain ⟨code, message, context⟩ := s
        cases hcode
        exact ⟨message, rfl⟩
      | queueFull => cases hcode
      | workerStopped => cases hcode
      | other what => cases hcode
      | killed => cases hcode
  obtain ⟨message, hreply⟩ := hstatus
  exact verdict_untouched hreply rfl

end Unbalanced

end Daichod
