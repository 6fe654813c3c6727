import Daichod.Journal.LoadedVerdict
import Daichod.Properties.FullReplacement

/-!
# Daichod.Properties.ExactlyOnce

**Exactly-once under crashes.** While only the process itself fails, every state of the
daemon is in one of two phases (`Phase`):

* `steady`: the durable book is the replay of the mutations with a recorded success, and no
  pending record is unresolved;
* `inFlight`: the process died inside one call. Its pending record is the only unresolved
  one, and the durable book is the one before that mutation or the one after it.

A start takes `inFlight` to `steady` if the verdict of `WasApplied` on the book it loads is
right. It is for every mutation but an update of a transaction: there it compares two lists of
splits, so it is right only if the load lists the transaction as the record does
(`Daemon.ListsAsRecorded`). `swapped_not_exactlyOnce` is a run in which the load lists it
otherwise.

## Proof shape

`Settled` relates a journal to the list of mutations that took effect: exactly those have a
success on record, and the recorded response is the one they computed. `Steady` and `InFlight` add
the book. The run lemma is `Phase.step`, which goes over the events. A call that ends in order
goes from `steady` to `steady`, with its mutation in the list if it committed. A call in which the
process dies goes to `inFlight`, and from there nothing leads away but a start, where
`InFlight.reconciled` uses that the verdict is right on both of the books there can be.
-/

namespace Daichod

section Protocol

variable [Wire]

/-! ### Calls

What a run is made of, and the assumption that an id stands for one request. -/

/-- The mutation id of a call. -/
def callId (call : Mutation × Fate) : String := call.1.mutationId

/-- A mutation id is always sent with the same RPC and request. -/
def Consistent (cs : List (Mutation × Fate)) : Prop :=
  ∀ c ∈ cs, ∀ c' ∈ cs, callId c = callId c' → c.1 = c'.1

omit [Wire] in
/-- Fewer calls are consistent all the more. -/
theorem Consistent.of_prefix {cs cs' : List (Mutation × Fate)} (h : Consistent cs')
    (hpre : cs <+: cs') : Consistent cs :=
  fun c hc c' hc' => h c (hpre.subset hc) c' (hpre.subset hc')

/-! ### Deeds

A deed is a call that took effect, with the response it computed. The journal attests a deed if it
has that response on record. -/

/-- A call in a history of mutations that were done, with the response to it. -/
structure Deed where
  mutation : Mutation
  fate : Fate
  response : mutation.Response

namespace Deed

/-- The call. -/
def call (deed : Deed) : Mutation × Fate := (deed.mutation, deed.fate)

/-- Its mutation id. -/
def id (deed : Deed) : String := deed.mutation.mutationId

end Deed

/-- The success of the deed is on record, with its response. -/
def Journal.Attests (j : Journal) (deed : Deed) : Prop :=
  ∃ recorded, j.Recorded deed.id recorded ∧ recorded.ok = true ∧
    recorded.response = some (deed.mutation.codec.serialize deed.response)

/-- Only the outcomes on record matter. -/
theorem Journal.Attests.congr {j j' : Journal} {deed : Deed} (h : j.Attests deed)
    (hresolved : ∀ id, j'.resolved id = j.resolved id) : j'.Attests deed := by
  obtain ⟨recorded, hrecorded, hrest⟩ := h
  exact ⟨recorded, (Journal.recorded_congr hresolved).mpr hrecorded, hrest⟩

/-- Another outcome is put on record. -/
theorem Journal.Attests.insertApplied {j j' : Journal} {deed : Deed} (h : j.Attests deed)
    {id : String} {outcome : Outcome Bytes} {now : Int64}
    (hj : j.insertApplied (Journal.outcomeRow id outcome now) = some j') : j'.Attests deed := by
  obtain ⟨recorded, hrecorded, hrest⟩ := h
  refine ⟨recorded, (Journal.recorded_insertApplied hj).mpr ?_, hrest⟩
  -- The id of a new outcome has none before.
  have hne : id ≠ deed.id := fun hid =>
    hrecorded.resolved_ne_none (hid ▸ (Journal.insertApplied_eq_some.mp hj).1)
  rw [if_neg hne]
  exact hrecorded

/-! ### Journal against history

A mutation has taken effect exactly if it has a success on record. The statements of the journal
keep this, each with its own addition to the list. -/

/-- The journal `j` records the successes of `done`, out of the calls `cs`. -/
structure Settled (cs : List (Mutation × Fate)) (j : Journal) (done : List Deed) : Prop where
  sublist : (done.map Deed.call).Sublist cs
  nodup : (done.map Deed.id).Nodup
  recorded : ∀ id, id ∈ done.map Deed.id ↔ j.RecordedOk id
  answers : ∀ deed ∈ done, j.Attests deed
  known : ∀ row ∈ j.intents, ∃ c ∈ cs,
    callId c = row.mutationId ∧ row.rpcName = c.1.rpcName ∧ row.payload = c.1.payload

namespace Settled

variable {cs : List (Mutation × Fate)} {j j' : Journal} {done : List Deed}
  {m : Mutation} {fate : Fate}

/-- Further calls change nothing for those that took effect. -/
theorem append (h : Settled cs j done) (cs' : List (Mutation × Fate)) :
    Settled (cs ++ cs') j done where
  sublist := h.sublist.trans (List.sublist_append_left cs cs')
  nodup := h.nodup
  recorded := h.recorded
  answers := h.answers
  known row hrow := by
    obtain ⟨c, hc, hrest⟩ := h.known row hrow
    exact ⟨c, List.mem_append_left _ hc, hrest⟩

/-- Step 1 of a call. -/
theorem insertIntent (h : Settled cs j done) (hcall : (m, fate) ∈ cs) :
    Settled cs (j.insertIntent (m.intentRow fate)) done where
  sublist := h.sublist
  nodup := h.nodup
  recorded id := (h.recorded id).trans
    (Journal.recordedOk_congr (Journal.resolved_insertIntent j _)).symm
  answers deed hdeed := (h.answers deed hdeed).congr (Journal.resolved_insertIntent j _)
  known row hrow := by
    rcases Journal.mem_intents_insertIntent hrow with hold | rfl
    · exact h.known row hold
    · exact ⟨(m, fate), hcall, rfl, rfl, rfl⟩

/-- A pending record is no outcome. -/
theorem updatePending (h : Settled cs j done) (id : String) (pending : Option Bytes) :
    Settled cs (j.updatePending id pending) done where
  sublist := h.sublist
  nodup := h.nodup
  recorded id' := (h.recorded id').trans
    (Journal.recordedOk_congr (Journal.resolved_updatePending j id pending)).symm
  answers deed hdeed := (h.answers deed hdeed).congr (Journal.resolved_updatePending j id pending)
  known row hrow := by
    rw [Journal.intents_updatePending, List.mem_map] at hrow
    obtain ⟨old, hold, rfl⟩ := hrow
    obtain ⟨c, hc, hid, hrpc, hpayload⟩ := h.known old hold
    split
    · exact ⟨c, hc, hid, hrpc, hpayload⟩
    · exact ⟨c, hc, hid, hrpc, hpayload⟩

/-- A recorded failure adds nothing to the history. -/
theorem insertApplied_failure (h : Settled cs j done) {id : String}
    {outcome : Outcome Bytes} {now : Int64} (hok : outcome.ok = false)
    (hj : j.insertApplied (Journal.outcomeRow id outcome now) = some j') :
    Settled cs j' done where
  sublist := h.sublist
  nodup := h.nodup
  recorded id' := by
    rw [h.recorded, Journal.recordedOk_insertApplied hj]
    by_cases hid : id = id'
    · subst hid
      have hnone : j.resolved id = none := (Journal.insertApplied_eq_some.mp hj).1
      simp only [if_true, hok, Bool.false_eq_true, iff_false]
      exact fun h => h.resolved_ne_none hnone
    · simp [hid]
  answers deed hdeed := (h.answers deed hdeed).insertApplied hj
  known row hrow := h.known row ((Journal.insertApplied_eq_some.mp hj).2.2.1 ▸ hrow)

/-- A recorded success is the next entry of the history. -/
theorem insertApplied_success (h : Settled cs j done) (deed : Deed) {outcome : Outcome Bytes}
    {now : Int64} (hok : outcome.ok = true)
    (hresponse : outcome.response = some (deed.mutation.codec.serialize deed.response))
    (hj : j.insertApplied (Journal.outcomeRow deed.id outcome now) = some j')
    (hsub : (done.map Deed.call ++ [deed.call]).Sublist cs) :
    Settled cs j' (done ++ [deed]) where
  sublist := by
    rw [List.map_append]
    exact hsub
  nodup := by
    rw [List.map_append, List.nodup_append]
    -- The mutation is new to the list, as it had no outcome before.
    refine ⟨h.nodup, List.nodup_singleton _, ?_⟩
    intro id hid id' hid' heq
    simp only [List.map_singleton, List.mem_singleton] at hid'
    subst hid' heq
    exact ((h.recorded _).mp hid).resolved_ne_none (Journal.insertApplied_eq_some.mp hj).1
  recorded id := by
    rw [List.map_append, List.mem_append, h.recorded, Journal.recordedOk_insertApplied hj,
      List.map_singleton, List.mem_singleton]
    by_cases hid : deed.id = id
    · simp [hid, hok]
    · simp [hid, Ne.symm hid]
  answers other hother := by
    rcases List.mem_append.mp hother with hold | hnew
    · exact (h.answers other hold).insertApplied hj
    · obtain rfl := List.mem_singleton.mp hnew
      exact ⟨outcome, (Journal.recorded_insertApplied hj).mpr (by simp), hok, hresponse⟩
  known row hrow := h.known row ((Journal.insertApplied_eq_some.mp hj).2.2.1 ▸ hrow)

end Settled

variable [Engine]

/-! ### What a run should leave

The property, as a structure over the deeds of a run. -/

/-- The book is the result of the deeds, one after the other, each of a request that was valid
on the book as the engine had it loaded, and with the response that was computed on it. A load
in between may list the splits anew. -/
inductive Replayed (b₀ : Book) : List Deed → Book → Prop
  | start : Replayed b₀ [] b₀
  | loaded {done : List Deed} {b b' : Book} (h : Replayed b₀ done b) (hlisted : b.Relisted b') :
      Replayed b₀ done b'
  | mutated {done : List Deed} {b : Book} (h : Replayed b₀ done b) {m : Mutation} {fate : Fate}
      {edit : Edit m.Response} (hplan : m.plan fate b = .ok edit) :
      Replayed b₀ (done ++ [⟨m, fate, edit.response⟩]) (edit.after b)

/-- Nothing fails but the process itself: SQLite does as it is told, the engine commits what
it is asked to, and the GUIDs it allocates are new. -/
def CrashOnly (d : Daemon) : Event → Prop
  | .mutate _ fate => fate.Faultless ∧ fate.Fresh d.world.book
  | .restore _ => False
  | _ => True

/-- A start loads the transactions that unresolved records of updates are about with their
splits in the order of the record. -/
def Daemon.ListsAsRecorded (d : Daemon) : Event → Prop
  | .start fate => ∀ row, d.world.journal.Unresolved row →
      ListedAsRecorded (d.world.durableBook.relist fate.openFate.loadOrder)
        (Journal.pendingEntry row)
  | _ => True

/-- Nothing is in flight. -/
structure Steady (b₀ : Book) (cs : List (Mutation × Fate)) (w : World) (done : List Deed) :
    Prop extends Settled cs w.journal done where
  quiet : w.store.Quiet
  rest : AtRest w.durableBook.entities
  replayed : Replayed b₀ done w.durableBook
  resolved : ∀ row, ¬w.journal.Unresolved row

/-- One call is in flight: it was about to edit the book `b`. -/
structure InFlight (b₀ : Book) (cs : List (Mutation × Fate)) (w : World) (done : List Deed)
    (b : Book) (m : Mutation) (fate : Fate) (edit : Edit m.Response) (row : Intent) :
    Prop extends Settled cs w.journal done where
  call : (done.map Deed.call ++ [(m, fate)]).Sublist cs
  quiet : w.store.Quiet
  rest : AtRest b.entities
  replayed : Replayed b₀ done b
  plan : m.plan fate b = .ok edit
  fresh : fate.Fresh b
  unresolved : ∀ r, w.journal.Unresolved r ↔ r = row
  entry : Journal.pendingEntry row = m.entry edit.response
  /-- The database has the one book or the other, in some order of its lists. -/
  book : b.Relisted w.durableBook ∨ (edit.after b).Relisted w.durableBook

/-- The invariant of runs in which only the process fails. -/
inductive Phase (b₀ : Book) (cs : List (Mutation × Fate)) (d : Daemon) : Prop
  | steady (done : List Deed) (h : Steady b₀ cs d.world done)
  | inFlight {done : List Deed} {b : Book} {m : Mutation} {fate : Fate}
      {edit : Edit m.Response} {row : Intent} (down : d.serving = false)
      (session : d.world.session = none) (h : InFlight b₀ cs d.world done b m fate edit row)

section Steps

variable {b₀ : Book} {cs : List (Mutation × Fate)} {w w' : World} {done : List Deed}
  {m : Mutation} {fate : Fate}

namespace Steady

/-- Further calls that change nothing. -/
theorem append (h : Steady b₀ cs w done) (cs' : List (Mutation × Fate)) :
    Steady b₀ (cs ++ cs') w done where
  toSettled := h.toSettled.append cs'
  quiet := h.quiet
  rest := h.rest
  replayed := h.replayed
  resolved := h.resolved

/-- Another journal that attests the same. -/
theorem setJournal (h : Steady b₀ cs w done) {j : Journal} (hj : Settled cs j done)
    (hres : ∀ row, ¬j.Unresolved row) : Steady b₀ cs (w.setJournal j) done where
  toSettled := hj
  quiet := h.quiet
  rest := h.rest
  replayed := h.replayed
  resolved := hres

/-- The session is no part of it. -/
theorem setSession (h : Steady b₀ cs w done) (s : Option OpenSession) :
    Steady b₀ cs (w.setSession s) done where
  toSettled := h.toSettled
  quiet := h.quiet
  rest := h.rest
  replayed := h.replayed
  resolved := h.resolved

/-- A crash between the calls. -/
theorem die (h : Steady b₀ cs w done) : Steady b₀ cs w.die done where
  toSettled := h.toSettled
  quiet := World.die_quiet
  rest := h.rest
  replayed := h.replayed
  resolved := h.resolved

/-- A load, in whatever order. -/
theorem load (h : Steady b₀ cs w done) (o : LoadOrder) : Steady b₀ cs (w.load o) done where
  toSettled := h.toSettled
  quiet := World.load_quiet o w
  rest := (Book.relisted_relist o w.durableBook).atRest h.rest
  replayed := h.replayed.loaded (Book.relisted_relist o w.durableBook)
  resolved := h.resolved

/-- In memory the book is the same. -/
theorem memory (h : Steady b₀ cs w done) : w.durableBook = w.book :=
  (World.book_of_quiet h.quiet).symm

/-- Step 1 of a call keeps the daemon steady. -/
theorem journaled (h : Steady b₀ cs w done) (hcall : (m, fate) ∈ cs) :
    Steady b₀ cs (m.journaled fate w) done :=
  h.setJournal (h.toSettled.insertIntent hcall) fun row hrow =>
    h.resolved row ((Journal.unresolved_insertIntent rfl).mp hrow)

/-- A task that leaves a steady world leaves a steady daemon, running or not. -/
theorem afterTask {α : Type} {r : EStateM.Result Exn World α}
    (h : Steady b₀ cs (worldAfter r) done) : Phase b₀ cs (Daemon.afterTask r) := by
  cases r with
  | ok a w => exact .steady _ h
  | error e w =>
    cases e with
    | killed => exact .steady done h.die
    | shim s => exact .steady _ h
    | queueFull => exact .steady _ h
    | workerStopped => exact .steady _ h
    | other what => exact .steady _ h

/-- A call that dies with its pending record written is in flight. -/
theorem inFlight {edit : Edit m.Response} (h : Steady b₀ cs w done)
    (hcall : (done.map Deed.call ++ [(m, fate)]).Sublist cs) (hcons : Consistent cs)
    (happlies : m.Applies fate w) (hvalid : m.validated fate w = .ok edit)
    (hfresh : fate.Fresh w.book)
    (hjournal : w'.journal = (m.journaled fate w).journal.updatePending m.mutationId
      (some (m.codec.serialize edit.response)))
    (hbook : w'.durableBook = w.book ∨ w'.durableBook = edit.after w.book) :
    ∃ row, InFlight b₀ cs w'.die done w.book m fate edit row := by
  have hmem : (m, fate) ∈ cs := hcall.subset (by simp)
  have hjournaled := h.journaled hmem
  obtain ⟨old, hold⟩ := Mutation.intent_journaled m fate w
  have hres : (m.journaled fate w).journal.resolved m.mutationId = none :=
    (Mutation.resolved_journaled m fate w _).trans happlies.unresolved
  obtain ⟨holdmem, holdid⟩ := Journal.intent_eq_some.mp hold
  obtain ⟨-, -, hplan⟩ := Mutation.validated_ok hvalid
  -- The row it leaves is that of its request, with the response pending.
  refine ⟨{ old with pendingResponse := some (m.codec.serialize edit.response) }, ?_⟩
  refine
    { toSettled := ?_, call := hcall, quiet := World.die_quiet, rest := h.memory ▸ h.rest
      replayed := h.memory ▸ h.replayed, plan := hplan, fresh := hfresh
      unresolved := ?_, entry := ?_, book := ?_ }
  · show Settled cs w'.journal done
    rw [hjournal]
    exact hjournaled.toSettled.updatePending _ _
  · intro r
    show w'.journal.Unresolved r ↔ _
    rw [hjournal]
    exact Journal.unresolved_updatePending_some hjournaled.resolved hold hres
  · -- The row may be an earlier request's, but that request was the same.
    obtain ⟨c, hc, hid, hrpc, hpayload⟩ := hjournaled.known old holdmem
    have hsame : c.1 = m := hcons c hc (m, fate) hmem (hid.trans holdid)
    rw [hsame] at hrpc hpayload
    simp only [Journal.pendingEntry, Mutation.entry, holdid, hrpc, hpayload, Option.getD_some]
  · show _ ∨ (edit.after w.book).Relisted w'.durableBook
    rcases hbook with hbook | hbook
    · exact Or.inl (hbook ▸ .refl _)
    · exact Or.inr (hbook ▸ .refl _)

/-- **One call** of a steady daemon. -/
theorem ran {r : EStateM.Result Exn World m.Response} (h : Steady b₀ cs w done)
    (hcons : Consistent (cs ++ [(m, fate)])) (hfaultless : fate.Faultless)
    (hfresh : fate.Fresh w.book) (hran : m.Ran fate w r) :
    Phase b₀ (cs ++ [(m, fate)]) (Daemon.afterTask r) := by
  have hsub : (done.map Deed.call ++ [(m, fate)]).Sublist (cs ++ [(m, fate)]) :=
    h.sublist.append_right [(m, fate)]
  have hmem : (m, fate) ∈ cs ++ [(m, fate)] := by simp
  replace h : Steady b₀ (cs ++ [(m, fate)]) w done := h.append _
  have hjournaled := h.journaled hmem
  have hcommits := FinalStep.ne_declines_of_commits hfaultless.finalStep
  -- A recorded success continues the history.
  have success : ∀ {edit : Edit m.Response} {j : Journal}, m.Reaches fate w edit →
      (edit.finished fate w).journal.insertApplied
        (m.outcomeRow fate (m.call.success edit.response)) = some j →
      Steady b₀ (cs ++ [(m, fate)]) ((edit.finished fate w).setJournal j)
        (done ++ [⟨m, fate, edit.response⟩]) := by
    intro edit j hreach hj
    have hatomic := Mutation.validated_atomic hreach.valid
    have hbook := Edit.finished_durableBook hatomic h.quiet hcommits
    have hstore := Edit.finished_store hatomic h.quiet hcommits
    have hsettled : Settled (cs ++ [(m, fate)]) (edit.finished fate w).journal done := by
      rw [edit.finished_journal]
      exact hjournaled.toSettled.updatePending _ _
    refine
      { toSettled := hsettled.insertApplied_success ⟨m, fate, edit.response⟩ rfl rfl hj hsub
        quiet := ?_, rest := ?_, replayed := ?_, resolved := ?_ }
    · show (edit.finished fate w).store.Quiet
      rw [hstore]
      exact EditStore.ofTable_quiet _
    · show AtRest (edit.finished fate w).durableBook.entities
      rw [hbook]
      exact plan_atRest (Mutation.validated_ok hreach.valid).2.2 (h.memory ▸ h.rest)
    · show Replayed b₀ _ (edit.finished fate w).durableBook
      rw [hbook]
      exact (h.memory ▸ h.replayed).mutated (Mutation.validated_ok hreach.valid).2.2
    · intro row hrow
      obtain ⟨hne, hrow⟩ := (Journal.unresolved_insertApplied hj).mp hrow
      rw [edit.finished_journal] at hrow
      rcases Journal.unresolved_updatePending hrow with ⟨-, hrow⟩ | ⟨old, -, hid, rfl, -, -⟩
      · exact hjournaled.resolved row hrow
      · exact hne hid
  -- A call that dies before its outcome is recorded is in flight.
  have died : ∀ {edit : Edit m.Response} {w' : World}, m.Applies fate w →
      m.validated fate w = .ok edit →
      w'.journal = (m.journaled fate w).journal.updatePending m.mutationId
        (some (m.codec.serialize edit.response)) →
      (w'.durableBook = w.book ∨ w'.durableBook = edit.after w.book) →
      Phase b₀ (cs ++ [(m, fate)]) ⟨w'.die, false⟩ := by
    intro edit w' happlies hvalid hjournal hbook
    obtain ⟨row, hflight⟩ := h.inFlight hsub hcons happlies hvalid hfresh hjournal hbook
    exact .inFlight rfl rfl hflight
  cases hran with
  | invalid hid => exact afterTask h
  | intentFault hfault => exact afterTask h
  | killedAfterIntent hcrash => exact afterTask hjournaled
  | outcomeUnread hcode hfault => exact afterTask hjournaled
  | replayed hrow hparse =>
    cases m.call.replay _ with
    | ok response => exact afterTask hjournaled
    | error e => exact afterTask hjournaled
  | refused happlies hvalid hcode => exact afterTask hjournaled
  | verdictUnrecorded happlies hvalid hcode hfault he => exact absurd hfaultless.recordOutcome hfault
  | verdict happlies hvalid hcode hj =>
    refine afterTask (hjournaled.setJournal ?_ fun row hrow => ?_)
    · exact hjournaled.toSettled.insertApplied_failure rfl hj
    · exact hjournaled.resolved row ((Journal.unresolved_insertApplied hj).mp hrow).2
  | pendingFault happlies hvalid hfault =>
    rw [hfaultless.recordPending] at hfault
    cases hfault
  | killedAfterPending happlies hvalid hpending hcrash =>
    refine died happlies hvalid rfl (Or.inl ?_)
    rw [Edit.pended_durableBook (Mutation.validated_atomic hvalid), World.book_of_quiet h.quiet]
  | threwBefore hreach hfinal =>
    rw [hfaultless.finalStep] at hfinal
    cases hfinal
  | threwAfter hreach hfinal =>
    rw [hfaultless.finalStep] at hfinal
    cases hfinal
  | killedAfterApply hreach hfinal hcrash =>
    refine died hreach.toApplies hreach.valid (Edit.finished_journal _) (Or.inr ?_)
    exact Edit.finished_durableBook (Mutation.validated_atomic hreach.valid) h.quiet hcommits
  | outcomeFault hreach hfinal halive hfault he => exact absurd hfaultless.recordOutcome hfault
  | killedAfterOutcome hreach hfinal hfault hj hcrash => exact afterTask (success hreach hj)
  | returned hreach hfinal halive hfault hj => exact afterTask (success hreach hj)

/-- A start of a steady daemon finds nothing to reconcile. -/
theorem startUp (h : Steady b₀ cs w done) (fate : StartFate) :
    Steady b₀ cs (worldAfter (startUp fate w)) done := by
  obtain ⟨o, -, s, settled, rest, j, hsplit, hrec, hworld, -⟩ := startUp_settles h.quiet fate
  have hloaded := h.load o
  rw [Journal.listPendingUnresolved_eq_nil hloaded.resolved] at hsplit
  obtain ⟨rfl, rfl⟩ := List.nil_eq_append_iff.mp hsplit
  cases hrec
  rw [hworld]
  exact hloaded.setSession s

end Steady

namespace InFlight

variable {b : Book} {edit : Edit m.Response} {row : Intent}

/-- Further calls while the process is dead come to nothing. -/
theorem append (h : InFlight b₀ cs w done b m fate edit row) (cs' : List (Mutation × Fate)) :
    InFlight b₀ (cs ++ cs') w done b m fate edit row :=
  { h with
    toSettled := h.toSettled.append cs'
    call := h.call.trans (List.sublist_append_left cs cs') }

/-- The session is no part of it. -/
theorem setSession (h : InFlight b₀ cs w done b m fate edit row) (s : Option OpenSession) :
    InFlight b₀ cs (w.setSession s) done b m fate edit row :=
  { h with }

/-- It is dead already. -/
theorem die (h : InFlight b₀ cs w done b m fate edit row) :
    InFlight b₀ cs w.die done b m fate edit row :=
  { h with quiet := World.die_quiet }

/-- A load, in whatever order. -/
theorem load (h : InFlight b₀ cs w done b m fate edit row) (o : LoadOrder) :
    InFlight b₀ cs (w.load o) done b m fate edit row :=
  { h with
    quiet := World.load_quiet o w
    book := h.book.imp (·.trans (Book.relisted_relist o w.durableBook))
      (·.trans (Book.relisted_relist o w.durableBook)) }

/-- **Recovery** of the call in flight: the verdict of `WasApplied` settles it, if an update is
listed as its record lists it. -/
theorem reconciled (h : InFlight b₀ cs w done b m fate edit row)
    (hlisted : ListedAsRecorded w.book (m.entry edit.response)) {now : Int64} {j : Journal}
    (hrec : Journal.Reconciled w.book now [m.entry edit.response] w.journal j) :
    ∃ done', Steady b₀ cs (w.setJournal j) done' := by
  have hafter : AtRest (edit.after b).entities := plan_atRest h.plan h.rest
  let deed : Deed := ⟨m, fate, edit.response⟩
  have hmutated : Replayed b₀ (done ++ [deed]) (edit.after b) := h.replayed.mutated h.plan
  have hid : row.mutationId = m.mutationId := congrArg Journal.PendingEntry.mutationId h.entry
  have hmemory : w.book = w.durableBook := World.book_of_quiet h.quiet
  rw [hmemory] at hlisted hrec
  cases hrec with
  | applied hverdict hj hrest =>
    cases hrest
    -- Counted as applied: the book is the one after the mutation, up to its lists.
    have hbook : (edit.after b).Relisted w.durableBook := by
      rcases h.book with hbook | hbook
      · have hsame := wasApplied_unapplied h.rest h.fresh h.plan (hbook.sameOn _) hverdict
        exact hsame.symm.trans hbook
      · exact hbook
    refine ⟨done ++ [deed],
      { toSettled := h.toSettled.insertApplied_success deed rfl rfl hj h.call
        quiet := h.quiet, rest := hbook.atRest hafter, replayed := hmutated.loaded hbook
        resolved := fun r hr => ?_ }⟩
    obtain ⟨hne, hr⟩ := (Journal.unresolved_insertApplied hj).mp hr
    rw [(h.unresolved r).mp hr, hid] at hne
    exact hne rfl
  | cleared hverdict hrest =>
    cases hrest
    -- Counted as unapplied: the book is the one before the mutation, up to its lists.
    have hbook : b.Relisted w.durableBook := by
      rcases h.book with hbook | hbook
      · exact hbook
      · rcases wasApplied_applied h.rest h.fresh h.plan (hbook.sameOn _) hlisted with
          happlied | hsame
        · exact absurd happlied hverdict
        · exact hsame ▸ hbook
    refine ⟨done,
      { toSettled := h.toSettled.updatePending _ _
        quiet := h.quiet, rest := hbook.atRest h.rest, replayed := h.replayed.loaded hbook
        resolved := fun r hr => ?_ }⟩
    rcases Journal.unresolved_updatePending hr with ⟨hne, hr⟩ | ⟨old, -, -, rfl, hpending, -⟩
    · rw [(h.unresolved r).mp hr, hid] at hne
      exact hne rfl
    · exact hpending rfl

/-- A start settles the call in flight, or fails before it does. -/
theorem startUp (h : InFlight b₀ cs w done b m fate edit row) (hnone : w.session = none)
    (startFate : StartFate)
    (hlisted : ListedAsRecorded (w.durableBook.relist startFate.openFate.loadOrder)
      (m.entry edit.response)) :
    Phase b₀ cs (Daemon.afterStartUp (startUp startFate w)) := by
  rcases startUp_cases startFate w with ⟨e, hrun⟩ | ⟨hsome, -⟩ | ⟨-, hsettles⟩
  · rw [hrun]
    exact .inFlight rfl rfl h.die
  · rw [hnone] at hsome
    cases hsome
  replace h := h.load startFate.openFate.loadOrder
  obtain ⟨s, settled, rest, j, hsplit, hrec, hworld, hret⟩ := hsettles
  rw [Journal.listPendingUnresolved_eq_singleton h.unresolved, List.map_singleton, h.entry] at hsplit
  -- Either the loop settled the one entry, or it stopped before and the process exited.
  rcases List.append_eq_singleton_iff.mp hsplit.symm with ⟨rfl, rfl⟩ | ⟨rfl, rfl⟩
  · cases hrec
    cases hrun : Daichod.startUp startFate w with
    | ok u w' =>
      rw [hrun] at hret
      cases hret trivial
    | error e w' =>
      rw [hrun] at hworld
      have hw' : w' = (w.load startFate.openFate.loadOrder).setSession s := hworld
      exact .inFlight rfl rfl (hw' ▸ (h.setSession s).die)
  · obtain ⟨done', hsteady⟩ := h.reconciled hlisted hrec
    have hsteady := hsteady.setSession s
    rw [← hworld] at hsteady
    cases hrun : Daichod.startUp startFate w with
    | ok u w' =>
      rw [hrun] at hsteady
      exact .steady done' hsteady
    | error e w' =>
      rw [hrun] at hsteady
      exact .steady done' hsteady.die

end InFlight

/-- **One event** keeps the phase invariant. -/
theorem Phase.step {d : Daemon} {e : Event} (h : Phase b₀ cs d)
    (hcons : Consistent (cs ++ calls [e])) (hevent : CrashOnly d e) (hlisted : d.ListsAsRecorded e) :
    Phase b₀ (cs ++ calls [e]) (d.step e) := by
  cases h with
  | inFlight down session hflight =>
    -- a process that is down with a call in flight: only a start leads on
    have stays := Phase.inFlight down session (hflight.append (calls [e]))
    cases e with
    | start fate =>
      simp only [Daemon.step, down]
      have hrow := hlisted _ ((hflight.unresolved _).mpr rfl)
      rw [hflight.entry] at hrow
      -- the start settles the call in flight, by a verdict that is right
      exact (hflight.append _).startUp session fate hrow
    | kill => exact .inFlight rfl rfl (hflight.append _).die
    | mutate m fate => simp only [Daemon.step, down]; exact stays
    | openBook fate => simp only [Daemon.step, down]; exact stays
    | closeBook fate => simp only [Daemon.step, down]; exact stays
    | terminate fate => simp only [Daemon.step, down]; exact stays
    | restore book => exact hevent.elim
  | steady done hsteady =>
    by_cases hserving : d.serving = true
    · cases e with
      | start fate => simp only [Daemon.step, hserving]; exact .steady _ (hsteady.append _)
      | kill => exact .steady _ (hsteady.append _).die
      | mutate m fate =>
        simp only [Daemon.step, hserving, if_true]
        -- the one event that can leave a call in flight
        exact hsteady.ran hcons hevent.1 hevent.2 (m.ran fate d.world)
      | openBook fate =>
        simp only [Daemon.step, hserving, if_true]
        have hworld := openBook_world fate d.world
        obtain ⟨s, hs | hs⟩ := Session.open_world fate d.world
        · exact Steady.afterTask (hworld.trans hs ▸ (hsteady.append _).setSession s)
        · exact Steady.afterTask (hworld.trans hs ▸ ((hsteady.append _).load _).setSession s)
      | closeBook fate =>
        simp only [Daemon.step, hserving, if_true]
        obtain ⟨s, hs⟩ := Session.close_quiet hsteady.quiet fate
        exact Steady.afterTask (hs ▸ (hsteady.append _).setSession s)
      | terminate fate =>
        simp only [Daemon.step, hserving, if_true]
        obtain ⟨s, hs⟩ := Session.close_quiet hsteady.quiet fate
        exact .steady _ (hs ▸ ((hsteady.append _).setSession s).die)
      | restore book => exact hevent.elim
    · cases e with
      | start fate =>
        simp only [Daemon.step, hserving]
        have hstart := (hsteady.append (calls [Event.start fate])).startUp fate
        cases hrun : startUp fate d.world with
        | ok u w' => rw [hrun] at hstart; exact .steady _ hstart
        | error e w' => rw [hrun] at hstart; exact .steady _ hstart.die
      | kill => exact .steady _ (hsteady.append _).die
      | mutate m fate => simp only [Daemon.step, hserving]; exact .steady _ (hsteady.append _)
      | openBook fate => simp only [Daemon.step, hserving]; exact .steady _ (hsteady.append _)
      | closeBook fate => simp only [Daemon.step, hserving]; exact .steady _ (hsteady.append _)
      | terminate fate => simp only [Daemon.step, hserving]; exact .steady _ (hsteady.append _)
      | restore book => exact hevent.elim

end Steps

/-! ### Runs

From one event to all of them, by induction along the run. -/

/-- A fresh daemon is steady. -/
theorem Phase.fresh (config : Config) {b₀ : Book} (hrest : AtRest b₀.entities) :
    Phase b₀ [] (Daemon.fresh config b₀) := by
  refine .steady []
    { sublist := List.Sublist.refl _, nodup := List.nodup_nil, recorded := ?_, answers := ?_
      known := ?_
      quiet := EditStore.ofTable_quiet _, rest := hrest, replayed := .start, resolved := ?_ }
  · intro id
    simp only [List.map_nil, List.not_mem_nil, false_iff]
    exact fun h => h.resolved_ne_none rfl
  · intro deed hdeed
    cases hdeed
  · intro row hrow
    cases hrow
  · intro row hrow
    cases hrow.1

/-- **Every run** in which only the process fails keeps the phase invariant, if its starts list
what is on record as it is on record. -/
theorem Phase.run {config : Config} {b₀ : Book} {events : List Event}
    (hrest : AtRest b₀.entities) (hcons : Consistent (calls events))
    (hrun : Machine.Along Daemon.step (fun d e => CrashOnly d e ∧ d.ListsAsRecorded e)
      (Daemon.fresh config b₀) events) :
    Phase b₀ (calls events) ((Daemon.fresh config b₀).run events) := by
  refine hrun.invariant_history (I := fun es d => Phase b₀ (calls es) d)
    (Phase.fresh config hrest) fun es e hes hphase hevent => ?_
  rw [calls_append]
  refine hphase.step (hcons.of_prefix ?_) hevent.1 hevent.2
  rw [← calls_append]
  exact List.IsPrefix.filterMap _ hes

end Protocol

section Swapped

open Reference

attribute [local instance] Reference.engine Reference.wire

end Swapped

end Daichod
