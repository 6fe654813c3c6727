import Daichod.Daemon
import Daichod.Reference

/-!
# Daichod.Properties.JournaledRequests

**Which request a journal row holds.** `RecordIntent` keeps the first row of a mutation id
whatever is sent later, while `RunMutation` applies, and records the pending response of,
the request it was sent. So the request a row holds is that of the first call the run
journaled under its id (`description_run`), and the row describes what is applied exactly
when every call that gets so far repeats that first one (`describes_iff`).

## Proof shape

A row without its pending response (`Journal.sent`) is written once, by `INSERT OR IGNORE`, and
never again. So an event changes it only by filling it where it is empty
(`Daemon.Down.sent_step`), and over a run the first event that offers a row is the one whose row
is there.
-/

namespace Daichod

section Described

variable [Wire]

/-! ### The first call under an id

`journals` says which request an event offers to the journal under an id, and `firstJournaled`
finds the first that a run offers. -/

/-- The call gets its request journaled, if its mutation id has no row yet. -/
structure Mutation.Journals (m : Mutation) (fate : Fate) : Prop where
  id_valid : validateMutationId m.mutationId = .ok ()
  intent : fate.recordIntentFault = none

omit [Wire] in
/-- The check of an id is a match with one pattern, and so decidable. -/
theorem validateMutationId_eq_ok {id : String} : validateMutationId id = .ok () ↔
    matchesPattern "xxxxxxxx-xxxx-xxxx-xxxx-xxxxxxxxxxxx".toList id.toList = true := by
  unfold validateMutationId
  by_cases h : matchesPattern "xxxxxxxx-xxxx-xxxx-xxxx-xxxxxxxxxxxx".toList id.toList = true
  · rw [if_pos h]
    exact iff_of_true rfl h
  · rw [if_neg h]
    exact iff_of_false nofun h

instance (m : Mutation) (fate : Fate) : Decidable (m.Journals fate) :=
  decidable_of_iff
    (matchesPattern "xxxxxxxx-xxxx-xxxx-xxxx-xxxxxxxxxxxx".toList m.mutationId.toList = true ∧
      fate.recordIntentFault = none)
    ⟨fun h => ⟨validateMutationId_eq_ok.mpr h.1, h.2⟩,
      fun h => ⟨validateMutationId_eq_ok.mp h.id_valid, h.intent⟩⟩

/-- What a row says about the request: the RPC, the request and its digest. -/
def Intent.description (row : Intent) : String × Bytes × Bytes :=
  (row.rpcName, row.payload, row.payloadSha256)

/-- What a row should say about a call. -/
def Mutation.description (m : Mutation) : String × Bytes × Bytes :=
  (m.rpcName, m.payload, Wire.sha256 m.payload)

variable [Engine]

/-- The request an event offers to the journal under an id. -/
def journals (id : String) (d : Daemon) : Event → Option Mutation
  | .mutate m fate =>
    if d.serving = true ∧ m.mutationId = id ∧ m.Journals fate then some m else none
  | _ => none

/-- The first call of a run that gets its request journaled under an id. -/
def firstJournaled (id : String) : Daemon → List Event → Option Mutation
  | _, [] => none
  | d, e :: events => (journals id d e).or (firstJournaled id (d.step e) events)

/-! ### What a call and an event do to a row

Of a row only the pending response is ever overwritten. Everything else of it is `Journal.sent`,
and a later write under the same id is ignored. -/

section Rows

variable {m : Mutation} {fate : Fate} {w : World} {j j' : Journal} {id : String}

/-- The row an event offers to the journal under an id. -/
def journaledRow (id : String) (d : Daemon) : Event → Option Intent
  | .mutate m fate =>
    if d.serving = true ∧ m.mutationId = id ∧ m.Journals fate then some (m.intentRow fate) else none
  | _ => none

omit [Engine] in
/-- The row an event offers describes the request it offers. -/
theorem journaledRow_description (id : String) (d : Daemon) (e : Event) :
    (journaledRow id d e).map Intent.description = (journals id d e).map Mutation.description := by
  cases e with
  | mutate m fate =>
    simp only [journaledRow, journals]
    split <;> rfl
  | _ => rfl

omit [Engine] in
/-- The row of a mutation id as step 1 wrote it: only its pending response changes later. -/
def Journal.sent (j : Journal) (id : String) : Option Intent :=
  (j.intent id).map ({ · with pendingResponse := none })

omit [Engine] in
/-- What is on record about the request of a mutation id. -/
def Journal.description (j : Journal) (id : String) : Option (String × Bytes × Bytes) :=
  (j.intent id).map Intent.description

omit [Engine] in
/-- A row describes its request whether its pending response is there or not. -/
theorem Journal.description_eq (j : Journal) (id : String) :
    j.description id = (j.sent id).map Intent.description := by
  rw [Journal.description, Journal.sent, Option.map_map]
  rfl

omit [Engine] in
/-- Writing the pending response writes nothing else of the row. -/
@[simp] theorem Journal.sent_updatePending (j : Journal) (id' : String) (p : Option Bytes)
    (id : String) : (j.updatePending id' p).sent id = j.sent id := by
  unfold Journal.sent
  rw [Journal.intent_updatePending]
  split
  · rw [Option.map_map]
    rfl
  · rfl

omit [Engine] in
/-- An outcome is written to another table. -/
theorem Journal.sent_insertApplied {a : Applied} (h : j.insertApplied a = some j')
    (id : String) : j'.sent id = j.sent id := by
  rw [Journal.sent, Journal.intent_insertApplied h, Journal.sent]

omit [Engine] in
/-- Step 1 fills a row that is not there yet. -/
theorem Journal.sent_journaled (m : Mutation) (fate : Fate) (w : World) (id : String) :
    (m.journaled fate w).journal.sent id =
      (w.journal.sent id).or (if m.mutationId = id then some (m.intentRow fate) else none) := by
  have hrow : (m.journaled fate w).journal.intent id = _ :=
    Journal.intent_insertIntent w.journal (m.intentRow fate) id
  unfold Journal.sent
  rw [hrow]
  by_cases hid : m.mutationId = id
  · rw [if_pos (show (m.intentRow fate).mutationId = id from hid), if_pos hid]
    cases w.journal.intent id with
    | none => rfl
    | some row => rfl
  · rw [if_neg (show (m.intentRow fate).mutationId ≠ id from hid), if_neg hid, Option.or_none]

omit [Engine] in
/-- Step 1 puts the request on record where none is under that id. -/
theorem Journal.description_journaled (m : Mutation) (fate : Fate) (w : World) (id : String) :
    (m.journaled fate w).journal.description id =
      (w.journal.description id).or (if m.mutationId = id then some m.description else none) := by
  rw [Journal.description_eq, Journal.sent_journaled, Option.map_or, ← Journal.description_eq]
  split <;> rfl

/-- Steps 2 to 4 leave the request on record alone. -/
theorem Mutation.Ran.sent {r : EStateM.Result Exn World m.Response} (h : m.Ran fate w r)
    (hjournals : m.Journals fate) (id : String) :
    (worldAfter r).journal.sent id = (m.journaled fate w).journal.sent id := by
  have hpended : ∀ edit : Edit m.Response, (edit.pended fate w).journal.sent id
      = (m.journaled fate w).journal.sent id := fun edit => Journal.sent_updatePending ..
  have hfinished : ∀ edit : Edit m.Response, (edit.finished fate w).journal.sent id
      = (m.journaled fate w).journal.sent id := by
    intro edit
    rw [edit.finished_journal, Journal.sent_updatePending]
  -- behind step 1 a call writes the pending column and the `applied` table only
  cases h with
  | invalid hid => rw [hjournals.id_valid] at hid; cases hid
  | intentFault hfault => rw [hjournals.intent] at hfault; cases hfault
  | killedAfterIntent hcrash => rfl
  | outcomeUnread hcode hfault => rfl
  | replayed hrow hparse =>
    cases m.call.replay _ with
    | ok response => rfl
    | error e => rfl
  | refused happlies hvalid hcode => rfl
  | verdictUnrecorded happlies hvalid hcode hfault he => rfl
  | verdict happlies hvalid hcode hj => exact Journal.sent_insertApplied hj id
  | pendingFault happlies hvalid hfault => rfl
  | killedAfterPending happlies hvalid hpending hcrash => exact hpended _
  | threwBefore hreach hfinal => exact hpended _
  | threwAfter hreach hfinal => exact hfinished _
  | killedAfterApply hreach hfinal hcrash => exact hfinished _
  | outcomeFault hreach hfinal halive hfault he => exact hfinished _
  | killedAfterOutcome hreach hfinal hfault hj hcrash =>
    exact (Journal.sent_insertApplied hj id).trans (hfinished _)
  | returned hreach hfinal halive hfault hj =>
    exact (Journal.sent_insertApplied hj id).trans (hfinished _)

/-- A call that does not get its request journaled leaves the world alone. -/
theorem Mutation.run_of_not_journals (h : ¬m.Journals fate) : worldAfter (m.run fate w) = w := by
  unfold Mutation.run MutatingCall.run
  -- the call ends at the check of its id or at the journal's fault
  cases hid : validateMutationId m.mutationId with
  | error e =>
    have hrun : liftValid (validateMutationId m.call.mutationId) w = .error (.shim e) w := by
      show liftValid (validateMutationId m.mutationId) w = _
      rw [hid]
      rfl
    rw [run_bind_error hrun]
    rfl
  | ok u =>
    have hrun : liftValid (validateMutationId m.call.mutationId) w = .ok () w := by
      show liftValid (validateMutationId m.mutationId) w = _
      rw [hid]
      rfl
    rw [run_bind_ok hrun]
    cases hfault : fate.recordIntentFault with
    | none => exact absurd ⟨hid, hfault⟩ h
    | some e =>
      have hintent : Journal.recordIntent (some e) m.call.mutationId m.call.rpcName m.call.request
          fate.now w = .error (.shim ⟨.engineError, "journal: " ++ e.message, e.context⟩) w := rfl
      rw [run_bind_error hintent]
      rfl

/-- **A call** fills the row of its mutation id if it gets its request journaled. -/
theorem Mutation.sent_run (m : Mutation) (fate : Fate) (w : World) (id : String) :
    (worldAfter (m.run fate w)).journal.sent id = (w.journal.sent id).or
      (if m.mutationId = id ∧ m.Journals fate then some (m.intentRow fate) else none) := by
  by_cases hjournals : m.Journals fate
  · rw [(m.ran fate w).sent hjournals, Journal.sent_journaled]
    simp only [hjournals, and_true]
  · rw [Mutation.run_of_not_journals hjournals]
    simp only [hjournals, and_false, if_false, Option.or_none]

/-- **Reconciliation** leaves the requests on record alone. -/
theorem Journal.Reconciled.sent {book : Book} {now : Int64}
    {entries : List Journal.PendingEntry} (h : Journal.Reconciled book now entries j j')
    (id : String) : j'.sent id = j.sent id := by
  induction h with
  | nil j => rfl
  | applied hverdict hj hrest ih => exact ih.trans (Journal.sent_insertApplied hj id)
  | cleared hverdict hrest ih => exact ih.trans (Journal.sent_updatePending ..)

/-- **An event** fills the row of an id only by journaling a request under it. -/
theorem Daemon.Down.sent_step {d : Daemon} (h : d.Down) (e : Event) (id : String) :
    (d.step e).world.journal.sent id =
      (d.world.journal.sent id).or (journaledRow id d e) := by
  -- an event that is no call writes no row
  have hother (hnone : journaledRow id d e = none) (hnot : ∀ m fate, e ≠ .mutate m fate) :
      (d.step e).world.journal.sent id =
        (d.world.journal.sent id).or (journaledRow id d e) := by
    rw [hnone, Option.or_none]
    rcases h.step_journal e with hsame | ⟨m, fate, he, -⟩ | ⟨fate, o, settled, rest, -, -, -, hrec⟩
    · rw [hsame]
    · exact absurd he (hnot m fate)
    · exact hrec.sent id
  cases e with
  | mutate m fate =>
    by_cases hserving : d.serving = true
    · have hstep : (d.step (.mutate m fate)).world.journal
          = (worldAfter (m.run fate d.world)).journal := by
        simp only [Daemon.step, hserving, if_true]
        cases m.run fate d.world with
        | ok response w => rfl
        | error x w => cases x <;> rfl
      rw [hstep, Mutation.sent_run]
      simp only [journaledRow, hserving, true_and]
    · simp [Daemon.step, journaledRow, hserving]
  | start fate => exact hother rfl (by simp)
  | openBook fate => exact hother rfl (by simp)
  | closeBook fate => exact hother rfl (by simp)
  | terminate fate => exact hother rfl (by simp)
  | kill => exact hother rfl (by simp)
  | restore book => exact hother rfl (by simp)

/-- What an event puts on record about a request. -/
theorem Daemon.Down.description_step {d : Daemon} (h : d.Down) (e : Event) (id : String) :
    (d.step e).world.journal.description id =
      (d.world.journal.description id).or ((journals id d e).map Mutation.description) := by
  rw [Journal.description_eq, Journal.description_eq, h.sent_step, ← journaledRow_description,
    Option.map_or]

/-- **A row holds the first request journaled under its id**, over any run. -/
theorem Daemon.Down.description_run {d : Daemon} (h : d.Down) (events : List Event) (id : String) :
    (d.run events).world.journal.description id = (d.world.journal.description id).or
      ((firstJournaled id d events).map Mutation.description) := by
  induction events generalizing d with
  | nil => simp [firstJournaled]
  | cons e events ih =>
    rw [Daemon.run, Machine.run_cons, ← Daemon.run, ih (h.step e), h.description_step e id,
      Option.or_assoc, firstJournaled]
    cases journals id d e with
    | none => rfl
    | some m => rfl

/-- A call of the run that is the first to get its request journaled under its id. -/
structure FirstCall (d₀ : Daemon) (es : List Event) (m : Mutation) (fate : Fate)
    (before after : List Event) : Prop where
  split : es = before ++ .mutate m fate :: after
  serving : (d₀.run before).serving = true
  journals : m.Journals fate
  first : (d₀.run before).world.journal.sent m.mutationId = none

/-- An event later it is as much of a first call. -/
theorem FirstCall.concat {d₀ : Daemon} {es before after : List Event}
    (h : FirstCall d₀ es m fate before after) (e : Event) :
    FirstCall d₀ (es ++ [e]) m fate before (after ++ [e]) :=
  { h with split := by rw [h.split, List.append_assoc, List.cons_append] }

/-- **A row is that of a first call**, over any run. -/
theorem Daemon.Down.sent_run {d : Daemon} (h : d.Down)
    (hempty : ∀ id, d.world.journal.sent id = none) (events : List Event) {row : Intent}
    (hrow : (d.run events).world.journal.sent id = some row) :
    ∃ m fate before after, FirstCall d events m fate before after ∧ row = m.intentRow fate := by
  suffices hrun : (d.run events).Down ∧ ∀ row, (d.run events).world.journal.sent id = some row →
      ∃ m fate before after, FirstCall d events m fate before after ∧ row = m.intentRow fate from
    hrun.2 row hrow
  -- a row that is there was offered by the first call that got it journaled
  refine Machine.run_invariant_history (I := fun es (d' : Daemon) => d'.Down ∧
    ∀ row, d'.world.journal.sent id = some row → ∃ m fate before after,
      FirstCall d es m fate before after ∧ row = m.intentRow fate) ?_ ?_
  · refine ⟨h, fun row hrow => ?_⟩
    rw [hempty] at hrow
    cases hrow
  rintro es e ⟨hdown, ih⟩
  refine ⟨hdown.step e, fun row hrow => ?_⟩
  rw [hdown.sent_step, Option.or_eq_some_iff] at hrow
  -- the row was there before, or it is the one this event offers
  rcases hrow with hbefore | ⟨hnone, hhere⟩
  · obtain ⟨m, fate, before, after, hfirst, rfl⟩ := ih row hbefore
    exact ⟨m, fate, before, after ++ [e], hfirst.concat e, rfl⟩
  · cases e with
    | mutate m fate =>
      simp only [journaledRow] at hhere
      split at hhere
      · next hguard =>
        cases hhere
        obtain ⟨hserving, rfl, hjournals⟩ := hguard
        exact ⟨m, fate, es, [], ⟨rfl, hserving, hjournals, hnone⟩, rfl⟩
      · cases hhere
    | start fate => cases hhere
    | openBook fate => cases hhere
    | closeBook fate => cases hhere
    | terminate fate => cases hhere
    | kill => cases hhere
    | restore book => cases hhere

end Rows

/-! ### The row at the time of the call -/

/-- Should `apply` be invoked by this call, the row of its mutation id holds its RPC, its
request and the digest, and is the row its pending response is written to. -/
def DescribesExecuted (d : Daemon) : Event → Prop
  | .mutate m fate => d.serving = true → m.Applies fate d.world →
      ∃ row, (m.journaled fate d.world).journal.intent m.mutationId = some row ∧
        row.description = m.description ∧
        ∀ edit : Edit m.Response, m.validated fate d.world = .ok edit →
          (edit.pended fate d.world).journal.intent m.mutationId
            = some { row with pendingResponse := some (m.codec.serialize edit.response) }
  | _ => True

/-- Should `apply` be invoked by this call, it repeats the RPC and the request of the first
call that was journaled under its mutation id in the run so far. -/
def RepeatsFirst (d₀ : Daemon) (es : List Event) : Event → Prop
  | .mutate m fate => (d₀.run es).serving = true → m.Applies fate (d₀.run es).world →
      ∀ m₁, firstJournaled m.mutationId d₀ es = some m₁ →
        m₁.rpcName = m.rpcName ∧ m₁.payload = m.payload
  | _ => True

omit [Engine] in
/-- The description is the RPC and the request; the digest follows. -/
theorem description_eq_iff {m m' : Mutation} :
    m.description = m'.description ↔ m.rpcName = m'.rpcName ∧ m.payload = m'.payload := by
  unfold Mutation.description
  constructor
  · intro h
    simp only [Prod.mk.injEq] at h
    exact ⟨h.1, h.2.1⟩
  · intro h
    rw [h.1, h.2]

omit [Engine] in
/-- The row a pending response is written to is the one step 1 left. -/
theorem intent_pended {m : Mutation} {fate : Fate} {w : World} {row : Intent}
    (h : (m.journaled fate w).journal.intent m.mutationId = some row) (edit : Edit m.Response) :
    (edit.pended fate w).journal.intent m.mutationId
      = some { row with pendingResponse := some (m.codec.serialize edit.response) } := by
  have hrow := Journal.intent_updatePending (m.journaled fate w).journal m.mutationId
    (some (m.codec.serialize edit.response)) m.mutationId
  rw [if_pos rfl, h] at hrow
  exact hrow

/-- At one event of a run. -/
theorem describesExecuted_iff {d₀ : Daemon} (hdown : d₀.Down)
    (hempty : ∀ id, d₀.world.journal.description id = none) (es : List Event) (e : Event) :
    DescribesExecuted (d₀.run es) e ↔ RepeatsFirst d₀ es e := by
  cases e with
  | mutate m fate =>
    refine imp_congr_right fun _ => imp_congr_right fun _ => ?_
    obtain ⟨row, hrow⟩ := Mutation.intent_journaled m fate (d₀.run es).world
    -- The row at the time of the call is the first request's, or this one's.
    have hdescription := Journal.description_journaled m fate (d₀.run es).world m.mutationId
    rw [hdown.description_run es, hempty, Option.none_or, if_pos rfl, Journal.description,
      hrow, Option.map_some] at hdescription
    have hfirst : row.description = m.description ↔
        ∀ m₁, firstJournaled m.mutationId d₀ es = some m₁ →
          m₁.rpcName = m.rpcName ∧ m₁.payload = m.payload := by
      cases hm : firstJournaled m.mutationId d₀ es with
      | none =>
        rw [hm] at hdescription
        simpa using hdescription
      | some m₁ =>
        rw [hm] at hdescription
        have hrow : row.description = m₁.description := by simpa using hdescription
        rw [hrow, description_eq_iff]
        simp
    constructor
    · intro h
      obtain ⟨row', hrow', hdescribes, -⟩ := h
      rw [hrow] at hrow'
      exact hfirst.mp (Option.some.inj hrow' ▸ hdescribes)
    · intro h
      exact ⟨row, hrow, hfirst.mpr h, fun edit _ => intent_pended hrow edit⟩
  | start fate => exact Iff.rfl
  | openBook fate => exact Iff.rfl
  | closeBook fate => exact Iff.rfl
  | terminate fate => exact Iff.rfl
  | kill => exact Iff.rfl
  | restore book => exact Iff.rfl

/-- **Rows describe what is executed exactly when every call that gets so far repeats the
first one journaled under its id.** -/
theorem describes_iff (config : Config) (b₀ : Book) (events : List Event) :
    Machine.Along Daemon.step DescribesExecuted (Daemon.fresh config b₀) events ↔
      ∀ es e, es ++ [e] <+: events → RepeatsFirst (Daemon.fresh config b₀) es e := by
  have hdown : (Daemon.fresh config b₀).Down := fun _ => ⟨EditStore.ofTable_quiet _, rfl⟩
  rw [Machine.along_iff_forall]
  exact forall_congr' fun es => forall_congr' fun e => imp_congr_right fun _ =>
    describesExecuted_iff hdown (fun _ => rfl) es e

end Described

section Resent

open Reference

attribute [local instance] Reference.engine Reference.wire

/-- A transaction is posted and its process killed ahead of the commit. -/
def killedPost : Daemon :=
  (Daemon.fresh config book).run [.start (starts []),
    .mutate (post '1' 100) { calm 16 with crashAt := some .afterPending }, .start (starts [])]

/-- The creation of an account under the same mutation id. -/
def createUnderPost : Mutation :=
  .createAccount ⟨⟨mutationId '1'⟩, ⟨"", some (guidToString 1), "Rent", .expense,
    some ⟨"CURRENCY", "USD"⟩, "", "", false, false⟩⟩

/-- The account is created; the row says that a transaction was posted. -/
theorem createUnderPost_not_described :
    ¬Machine.Along Daemon.step DescribesExecuted (Daemon.fresh config book)
      [.start (starts []), .mutate (post '1' 100) { calm 16 with crashAt := some .afterPending },
        .start (starts []), .mutate createUnderPost (calm 32)] := by
  intro h
  have happlies : createUnderPost.Applies (calm 32) killedPost.world :=
    ⟨by decide +kernel, rfl, by decide, rfl, by decide +kernel⟩
  have hname : ((createUnderPost.journaled (calm 32) killedPost.world).journal.intent
      createUnderPost.mutationId).map Intent.rpcName
        = some "daicho.shim.v1.TransactionService/PostTransaction" := by decide +kernel
  have hserving : killedPost.serving = true := by decide +kernel
  obtain ⟨row, hrow, hdescribes, -⟩ := h.2.2.2.1 hserving happlies
  have hrow : (createUnderPost.journaled (calm 32) killedPost.world).journal.intent
      createUnderPost.mutationId = some row := hrow
  rw [hrow] at hname
  have hpost : row.rpcName = "daicho.shim.v1.TransactionService/PostTransaction" := by
    simpa using hname
  have hcreate : row.rpcName = createUnderPost.rpcName := congrArg Prod.fst hdescribes
  exact absurd (hpost.symm.trans hcreate) (by decide)

end Resent

end Daichod
