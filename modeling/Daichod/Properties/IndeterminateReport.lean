import Daichod.Properties.Answers
import Daichod.Properties.JournaledRequests

/-!
# Daichod.Properties.IndeterminateReport

**What a client can learn about the requests it lost.** `ListIndeterminateMutations` lists
exactly the requests that got into the journal and have no outcome there, each as the first call
under its id sent it, by what the clock showed in that call (`Reports`). Through the queue this
means: a mutation whose outcome anyone was told before the report was asked for is not in it,
and one that was journaled and is not in it has an outcome for the asking
(`indeterminate_report`).

## Proof shape

The listing is read off the two tables: a request in `intents`, in the order of the rows, with no
outcome beside it. Who wrote each row is known from `JournaledRequests`. What a client may
conclude uses that outcomes stay: who has been told one finds it on record in every later report.
-/

universe u

namespace Daichod

open SessionService (IndeterminateEntry IndeterminateMutations indeterminateEntry)

section Report

variable [Wire]

/-! ### The listing

The rows are filtered by what is on record and sorted by their time. -/

/-- What an entry says of its request. -/
def SessionService.IndeterminateEntry.request (entry : IndeterminateEntry) :
    String × String × Bytes :=
  (entry.mutationId, entry.rpcName, entry.payloadSha256)

/-- What a report should say of a request. -/
def Mutation.request (m : Mutation) : String × String × Bytes :=
  (m.mutationId, m.rpcName, Wire.sha256 m.payload)

/-- The ids of a report. -/
def SessionService.IndeterminateMutations.ids (report : IndeterminateMutations) : List String :=
  report.entries.map IndeterminateEntry.mutationId

/-- The listing is in the order of the times of journaling. -/
theorem Journal.listIndeterminate_sorted (j : Journal) :
    j.listIndeterminate.Pairwise fun a b => a.journaledAtUtc ≤ b.journaledAtUtc := by
  unfold listIndeterminate
  refine (List.pairwise_mergeSort ?_ ?_ _).imp fun h => of_decide_eq_true h
  · intro a b c hab hbc
    exact decide_eq_true (Int64.le_trans (of_decide_eq_true hab) (of_decide_eq_true hbc))
  · intro a b
    rw [Bool.or_eq_true, decide_eq_true_eq, decide_eq_true_eq]
    exact Int64.le_total _ _

/-- No mutation is listed twice. -/
theorem Journal.listIndeterminate_ids_nodup (j : Journal) :
    (j.listIndeterminate.map Intent.mutationId).Nodup := by
  unfold listIndeterminate
  rw [((List.mergeSort_perm _ _).map _).nodup_iff]
  exact j.intents_key.sublist (List.filter_sublist.map _)

variable [Engine]

/-- A request is found under its own id, which is a UUID. -/
theorem firstJournaled_id {id : String} {m : Mutation} {d : Daemon} {events : List Event}
    (h : firstJournaled id d events = some m) :
    m.mutationId = id ∧ validateMutationId id = .ok () := by
  induction events generalizing d with
  | nil => cases h
  | cons e events ih =>
    rw [firstJournaled, Option.or_eq_some_iff] at h
    rcases h with hhere | ⟨-, hlater⟩
    · cases e with
      | mutate m' fate =>
        simp only [journals] at hhere
        split at hhere
        · next hguard =>
          cases hhere
          obtain ⟨-, rfl, hjournals⟩ := hguard
          exact ⟨rfl, hjournals.id_valid⟩
        · cases hhere
      | start fate => cases hhere
      | openBook fate => cases hhere
      | closeBook fate => cases hhere
      | terminate fate => cases hhere
      | kill => cases hhere
      | restore book => cases hhere
    · exact ih hlater

/-- What a report says at the end of a run. -/
structure Reports (d₀ : Daemon) (es : List Event) (report : IndeterminateMutations) : Prop where
  sorted : report.entries.Pairwise fun a b => a.journaledAtUtc ≤ b.journaledAtUtc
  nodup : report.ids.Nodup
  /-- Listed are the requests that were the first to be journaled under an id that has no
  outcome. -/
  listed : ∀ request, request ∈ report.entries.map IndeterminateEntry.request ↔
    ∃ m, firstJournaled m.mutationId d₀ es = some m ∧ m.request = request ∧
      (d₀.run es).world.journal.resolved m.mutationId = none
  /-- The time of an entry is what the clock showed in the first call that was journaled under
  its id. -/
  times : ∀ entry ∈ report.entries, ∃ m fate before after, FirstCall d₀ es m fate before after ∧
    entry.request = m.request ∧ entry.journaledAtUtc = fate.now

/-- What is listed has a UUID for its id and no outcome. -/
theorem Reports.of_mem {d₀ : Daemon} {es : List Event} {report : IndeterminateMutations}
    (h : Reports d₀ es report) {id : String} (hid : id ∈ report.ids) :
    validateMutationId id = .ok () ∧ (d₀.run es).world.journal.resolved id = none := by
  obtain ⟨entry, hentry, rfl⟩ := List.mem_map.mp hid
  obtain ⟨m, hm, hrequest, hnone⟩ := (h.listed entry.request).mp (List.mem_map_of_mem hentry)
  have hsame : m.mutationId = entry.mutationId := congrArg Prod.fst hrequest
  exact ⟨hsame ▸ (firstJournaled_id hm).2, hsame ▸ hnone⟩

/-- **The report of a run.** -/
theorem reports_listIndeterminate (config : Config) (b₀ : Book) (es : List Event) :
    Reports (Daemon.fresh config b₀) es
      ⟨((Daemon.fresh config b₀).run es).world.journal.listIndeterminate.map indeterminateEntry⟩ := by
  have hdown : (Daemon.fresh config b₀).Down := fun _ => ⟨EditStore.ofTable_quiet _, rfl⟩
  have hdescription : ∀ id, ((Daemon.fresh config b₀).run es).world.journal.description id
      = (firstJournaled id (Daemon.fresh config b₀) es).map Mutation.description := by
    intro id
    rw [hdown.description_run es id]
    exact Option.none_or
  refine ⟨List.pairwise_map.mpr (Journal.listIndeterminate_sorted _), ?_, fun request => ?_,
    fun entry hentry => ?_⟩
  -- no id is listed twice, as `intents` has one row for each
  · have hids := Journal.listIndeterminate_ids_nodup
      ((Daemon.fresh config b₀).run es).world.journal
    rwa [IndeterminateMutations.ids, List.map_map]
  -- listed is what was journaled and has no outcome, and nothing else
  · rw [List.map_map, List.mem_map]
    constructor
    · rintro ⟨row, hrow, rfl⟩
      obtain ⟨hmem, hnone⟩ := Journal.mem_listIndeterminate.mp hrow
      have hfirst := hdescription row.mutationId
      rw [Journal.description, Journal.intent_eq_some.mpr ⟨hmem, rfl⟩, Option.map_some] at hfirst
      obtain ⟨m, hm, hsame⟩ := Option.map_eq_some_iff.mp hfirst.symm
      obtain ⟨hid, -⟩ := firstJournaled_id hm
      simp only [Mutation.description, Intent.description, Prod.mk.injEq] at hsame
      refine ⟨m, hid ▸ hm, ?_, hid ▸ hnone⟩
      simp only [Mutation.request, Function.comp_apply, IndeterminateEntry.request,
        indeterminateEntry, hid, hsame.1, hsame.2.2]
    · rintro ⟨m, hm, rfl, hnone⟩
      have hfirst := hdescription m.mutationId
      rw [hm, Option.map_some, Journal.description] at hfirst
      obtain ⟨row, hrow, hsame⟩ := Option.map_eq_some_iff.mp hfirst
      obtain ⟨hmem, hid⟩ := Journal.intent_eq_some.mp hrow
      simp only [Mutation.description, Intent.description, Prod.mk.injEq] at hsame
      refine ⟨row, Journal.mem_listIndeterminate.mpr ⟨hmem, hid ▸ hnone⟩, ?_⟩
      simp only [Mutation.request, Function.comp_apply, IndeterminateEntry.request,
        indeterminateEntry, hid, hsame.1, hsame.2.2]
  -- the time of an entry is what the clock showed in the first call
  · obtain ⟨row, hrow, rfl⟩ := List.mem_map.mp hentry
    obtain ⟨hmem, -⟩ := Journal.mem_listIndeterminate.mp hrow
    have hsent : ((Daemon.fresh config b₀).run es).world.journal.sent row.mutationId
        = some { row with pendingResponse := none } := by
      rw [Journal.sent, Journal.intent_eq_some.mpr ⟨hmem, rfl⟩, Option.map_some]
    obtain ⟨m, fate, before, after, hfirst, hsame⟩ := hdown.sent_run (fun _ => rfl) es hsent
    refine ⟨m, fate, before, after, hfirst, ?_, congrArg Intent.journaledAtUtc hsame⟩
    exact congrArg (fun row => (row.mutationId, row.rpcName, row.payloadSha256)) hsame

/-! ### Journaled requests

A request gets into the journal by the first call under its id that reaches step 1. -/

/-- A request that was journaled stays. -/
theorem Daemon.Down.journaled_after {d : Daemon} (h : d.Down) (hserving : d.serving = true)
    {m : Mutation} {fate : Fate} (hjournals : m.Journals fate) (events : List Event) :
    ((d.step (.mutate m fate)).run events).world.journal.description m.mutationId ≠ none := by
  rw [(h.step _).description_run, h.description_step]
  have hhere : journals m.mutationId d (.mutate m fate) = some m :=
    if_pos ⟨hserving, rfl, hjournals⟩
  rw [hhere]
  cases d.world.journal.description m.mutationId <;> simp

/-- A journaled request is listed or has an outcome. -/
theorem Journal.Sound.listed_or_recorded {d₀ : Daemon} {es : List Event} {j : Journal}
    (h : Journal.Sound d₀ es j) {id : String} (hjournaled : j.description id ≠ none) :
    id ∈ j.listIndeterminate.map Intent.mutationId ∨ ∃ recorded, j.Recorded id recorded := by
  obtain ⟨row, hrow⟩ : ∃ row, j.intent id = some row := by
    rw [← Option.ne_none_iff_exists']
    intro hnone
    exact hjournaled (by rw [Journal.description, hnone]; rfl)
  obtain ⟨hmem, hid⟩ := Journal.intent_eq_some.mp hrow
  cases hresolved : j.resolved id with
  | none =>
    refine Or.inl (List.mem_map.mpr ⟨row, Journal.mem_listIndeterminate.mpr ⟨hmem, ?_⟩, hid⟩)
    rw [hid, hresolved]
  | some outcomeRow =>
    obtain ⟨m, fate, w, outcome, -, -, hbytes, -⟩ :=
      h.applied outcomeRow (Journal.resolved_eq_some.mp hresolved).1
    exact Or.inr ⟨outcome, outcomeRow, hresolved, by rw [hbytes, Wire.outcome.parse_serialize]⟩

omit [Engine] in
/-- An OK reply to the request for the report. -/
theorem SessionService.replyOf_listIndeterminateMutations {fault : Option SqliteError} {w : World}
    {report : IndeterminateMutations}
    (h : .ok report = replyOf (listIndeterminateMutations fault w)) :
    report = ⟨w.journal.listIndeterminate.map indeterminateEntry⟩ := by
  cases fault with
  | none =>
    have hrun : listIndeterminateMutations none w
        = .ok ⟨w.journal.listIndeterminate.map indeterminateEntry⟩ w := rfl
    rw [hrun] at h
    cases h
    rfl
  | some e => cases h

end Report

/-! ### What clients learn

Told before the report was asked for, or after: the turns of the calls and of the report are in
one order. -/

section Clients

variable [Wire] [Engine] [DayTimes] [Balances] {ι : Type u} [DecidableEq ι]
  (traffic : Traffic ι) (maxDepth : ℕ)

/-- What the report `report` tells a client that asked for it at the end of the run `es`, and
got it in the run `later`. -/
structure Informs (config : Config) (b₀ : Book) (es later : List (Server.Event ι))
    (report : IndeterminateMutations) : Prop where
  /-- It is exact, at some time since. -/
  exact : ∃ middle rest,
    ((Server.fresh maxDepth config b₀).run traffic maxDepth es).serial traffic maxDepth later
      = middle ++ rest ∧
    Reports (Daemon.fresh config b₀) (Op.events traffic
      ((Server.fresh maxDepth config b₀).serial traffic maxDepth es ++ middle)) report
  /-- What anyone knew the outcome of is not in it. -/
  known : ∀ j m r, traffic.rpc j = .mutate m →
    (Server.fresh maxDepth config b₀).Answered traffic maxDepth es j ⟨.mutate m, r⟩ →
    r.Decided → m.mutationId ∉ report.ids
  /-- What was journaled and is not in it has an outcome, and whoever sends it again and is not
  stopped before the journal is read gets that outcome. -/
  settled : ∀ j m, traffic.rpc j = .mutate m → m.Journals (traffic.fate j).mutation →
    .serve j ∈ (Server.fresh maxDepth config b₀).serial traffic maxDepth es →
    m.mutationId ∉ report.ids →
    ∃ recorded, ((Server.fresh maxDepth config b₀).run traffic maxDepth
        (es ++ later)).daemon.world.journal.Recorded m.mutationId recorded ∧
      ∀ onward k r, traffic.rpc k = .mutate m → m.ReadsOutcome (traffic.fate k).mutation →
        ((Server.fresh maxDepth config b₀).run traffic maxDepth (es ++ later)).worker.runs k
          = .notCalled →
        ((Server.fresh maxDepth config b₀).run traffic maxDepth
          (es ++ later ++ onward)).worker.runs k = .returned ⟨.mutate m, r⟩ →
        r = m.replayed recorded

/-- What a server performs after a run, its daemon does after the events of the run. -/
theorem Server.perform_run (config : Config) (b₀ : Book) (es : List (Server.Event ι))
    (ops : List (Op ι)) :
    Machine.run (Daemon.perform traffic)
        ((Server.fresh maxDepth config b₀).run traffic maxDepth es).daemon ops
      = (Daemon.fresh config b₀).run (Op.events traffic
          ((Server.fresh maxDepth config b₀).serial traffic maxDepth es ++ ops)) := by
  rw [Server.run_daemon, ← Machine.run_append, ← Daemon.run_events]
  rfl

/-- **The report of indeterminate mutations**, as clients get it. -/
theorem indeterminate_report (config : Config) (b₀ : Book) (es later : List (Server.Event ι))
    {i : ι} {report : IndeterminateMutations}
    (hi : traffic.rpc i = .listIndeterminateMutations)
    (hcall : ((Server.fresh maxDepth config b₀).run traffic maxDepth es).worker.runs i
      = .notCalled)
    (hreturned : ((Server.fresh maxDepth config b₀).run traffic maxDepth
      (es ++ later)).worker.runs i = .returned ⟨.listIndeterminateMutations, .ok report⟩) :
    Informs traffic maxDepth config b₀ es later report := by
  have hcoherent : ((Server.fresh maxDepth config b₀).run traffic maxDepth es).worker.Coherent :=
    Server.run_coherent (EngineWorker.create_coherent maxDepth) es
  rw [Server.run, Machine.run_append] at hreturned
  obtain ⟨middle, after, hserial, -, hanswer⟩ :=
    (linearized hcoherent later).answered i _ hcall hreturned
  -- The report is that of the serial order up to the turn of the call.
  rw [Server.perform_run] at hanswer
  have hreport : report = ⟨((Daemon.fresh config b₀).run (Op.events traffic
      ((Server.fresh maxDepth config b₀).serial traffic maxDepth es
        ++ middle))).world.journal.listIndeterminate.map indeterminateEntry⟩ :=
    SessionService.replyOf_listIndeterminateMutations (Rpc.reply_of_answer hi hanswer)
  have hreports : Reports (Daemon.fresh config b₀) (Op.events traffic
      ((Server.fresh maxDepth config b₀).serial traffic maxDepth es ++ middle)) report := by
    rw [hreport]
    exact reports_listIndeterminate config b₀ _
  refine ⟨⟨middle, _, hserial, hreports⟩, fun j m r hj hanswered hdecided hmem => ?_,
    fun j m hj hjournals hserved hmem => ?_⟩
  · obtain ⟨hvalid, hnone⟩ := hreports.of_mem hmem
    rcases (hanswered.turn.append middle).recorded hj hdecided with
      ⟨recorded, -, hrecorded⟩ | ⟨hid, -⟩
    · rw [Daemon.run_events] at hrecorded
      exact hrecorded.resolved_ne_none hnone
    · exact hid hvalid
  · obtain ⟨front, back, hes⟩ := List.append_of_mem hserved
    have hserving : (Machine.run (Daemon.perform traffic) (Daemon.fresh config b₀) front).serving
        = true := Server.serial_serving hes
    have hjournaled := (Daemon.down_perform front).journaled_after hserving hjournals
      (Op.events traffic (back ++ middle))
    rw [← Daemon.run_serve hj, ← List.cons_append, ← List.append_assoc, ← hes,
      Daemon.run_events] at hjournaled
    have hsound := Daemon.Sound.run config b₀ (Op.events traffic
      ((Server.fresh maxDepth config b₀).serial traffic maxDepth es ++ middle))
    rcases hsound.journal.listed_or_recorded hjournaled with hlisted | ⟨recorded, hrecorded⟩
    · rw [hreport, IndeterminateMutations.ids, List.map_map] at hmem
      exact absurd hlisted hmem
    -- On record at the turn of the report, and ever after.
    have hstays : ∀ ops, (Machine.run (Daemon.perform traffic)
        ((Server.fresh maxDepth config b₀).run traffic maxDepth (es ++ later)).daemon
          ops).world.journal.Recorded m.mutationId recorded := by
      intro ops
      have hend : Machine.run (Daemon.perform traffic)
          ((Server.fresh maxDepth config b₀).run traffic maxDepth (es ++ later)).daemon ops
          = ((Daemon.fresh config b₀).run (Op.events traffic
              ((Server.fresh maxDepth config b₀).serial traffic maxDepth es ++ middle))).run
            (Op.events traffic (.serve i :: after ++ ops)) := by
        rw [Server.run, Machine.run_append, Server.run_daemon, ← Machine.run_append,
          Server.perform_run, hserial, Daemon.run, Daemon.run, ← Machine.run_append,
          ← Op.events_append]
        simp only [List.append_assoc]
      rw [hend]
      exact hsound.down.recorded_run hrecorded _
    refine ⟨recorded, hstays [], fun onward k r hk hreads hcallk hreturned => ?_⟩
    have hcoherent : ((Server.fresh maxDepth config b₀).run traffic maxDepth
        (es ++ later)).worker.Coherent :=
      Server.run_coherent (EngineWorker.create_coherent maxDepth) _
    rw [Server.run, Machine.run_append] at hreturned
    obtain ⟨before, -, -, -, hk'⟩ := (linearized hcoherent onward).answered k _ hcallk hreturned
    rw [Rpc.answer_mutate hk hk', Mutation.run_of_recorded hreads (hstays before),
      m.replyOf_replay]

end Clients

section Lost

open Reference

attribute [local instance] Reference.engine Reference.wire Reference.dayTimes Reference.balances

/-- A post whose process is killed ahead of the commit, and a client that asks what was lost. -/
def unansweredPost : Traffic (Fin 2) where
  rpc
    | 0 => .mutate (post '1' 100)
    | 1 => .listIndeterminateMutations
  fate
    | 0 => { calmRpc 16 with mutation := { calm 16 with crashAt := some .afterPending } }
    | 1 => calmRpc 32

/-- A call, and the next start. -/
def unansweredRun (call : Fin 2) : List (Server.Event (Fin 2)) :=
  .start (starts []) :: Server.roundTrip call ++ [.start (starts [])]

/-- A post whose client never hears of it is in the next report. -/
theorem indeterminate_report_unansweredPost :
    Informs unansweredPost 256 config book (unansweredRun 0) (Server.roundTrip 1)
      ⟨((Server.fresh 256 config book).run unansweredPost 256
        (unansweredRun 0)).daemon.world.journal.listIndeterminate.map indeterminateEntry⟩ := by
  have hdown : ((Server.fresh 256 config book).run unansweredPost 256
      (.start (starts []) :: Server.roundTrip 0)).daemon.serving = false := by decide +kernel
  have hresting : ((Server.fresh 256 config book).run unansweredPost 256 (unansweredRun 0)).Resting :=
    Server.resting_start unansweredPost hdown (by decide +kernel) (by decide)
  have hcall : ((Server.fresh 256 config book).run unansweredPost 256 (unansweredRun 0)).worker.runs 1
      = .notCalled := by
    have hstart := Server.step_start unansweredPost 256 hdown (starts [])
    rw [unansweredRun, Server.run, Machine.run_concat, hstart]
    rfl
  have hreturned : (((Server.fresh 256 config book).run unansweredPost 256 (unansweredRun 0)).run
      unansweredPost 256 (Server.roundTrip 1)).worker.runs = _ := (hresting.roundTrip hcall (by decide +kernel)).2.2
  refine indeterminate_report unansweredPost 256 config book (unansweredRun 0)
    (Server.roundTrip 1) rfl hcall ?_
  rw [Server.run, Machine.run_append, hreturned, Function.update_self]
  rfl

end Lost

end Daichod
