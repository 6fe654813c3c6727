import Daichod.Properties.Clients
import Daichod.Properties.IndeterminateReport
import Daichod.Properties.Replay

/-!
# Daichod.Properties.Resends

**Replay is stable, for any number of clients** (`resends_replayed`). Client threads call from
wherever they like, the process is killed and started again, and other books are put in place.
Once an outcome is on record for a mutation id, the record is final, and there is one earlier
call whose response or verdict everybody hears who sends that request again.

## Proof shape

The record itself is the business of the journal: no statement of it changes or drops a resolved
row (`Daemon.Down.resolved_run`), and a row was written for a call that was executed, by itself
or by recovery (`Journal.Sound`). Between two tasks nobody but the queue moves, so a re-sent
request is looked at in its turn, in a world that has the row: there the call ends before its
handler (`Mutation.run_of_resolved`). What is left is the way of the reply back to its client,
which is linearizability, and the calls that never get a turn.

Those are why the reply is not always the outcome or an error of the journal: a full queue turns
the call away with `RESOURCE_EXHAUSTED` before any of this (`resend_turned_away`).
-/

universe u

namespace Daichod

/-! ### One call -/

section Calls

variable [Wire] [Engine] {m : Mutation} {fate : Fate} {w : World}

/-- **A call that does not apply** never gets to its handler: with any other `apply` in its place
it does the same. -/
theorem Mutation.run_of_not_applies (h : ¬m.Applies fate w)
    (apply : Fate → PendingRecorder m.Response → Exec m.Response) :
    MutatingCall.run { m.call with apply } fate w = m.run fate w := by
  have hlookUp : MutatingCall.lookUp { m.call with apply } fate w = m.call.lookUp fate w := rfl
  unfold Mutation.run
  rw [MutatingCall.run_eq, MutatingCall.run_eq, run_bind, run_bind, hlookUp]
  have hlooked := m.lookedUp fate w
  generalize m.call.lookUp fate w = found at hlooked
  cases hlooked with
  | invalid hid => rfl
  | intentFault hfault => rfl
  | killedAfterIntent hcrash => rfl
  | unread he hunread => rfl
  | unresolved hreads hnone => exact absurd (hreads.applies hnone) h
  | resolved hreads hrow hparse => rfl

/-- A result as its client gets it. -/
def Reply.ofResult {Response : Type} : Except ShimError Response → Reply Response
  | .ok response => .ok response
  | .error e => .error e.toStatus

omit [Engine] in
@[simp] theorem replyOf_liftValid {Response : Type} (result : Except ShimError Response)
    (w : World) : replyOf (liftValid result w) = Reply.ofResult result := by
  cases result <;> rfl

/-- The reply is an error of the sidecar journal. -/
def Reply.OfJournal {Response : Type} (r : Reply Response) : Prop :=
  ∃ e : ShimError, e.OfJournal ∧ r = .error e.toStatus

/-- A replay is an error of the journal, the recorded result, or the end of the process. -/
theorem Mutation.Replays.reply {result : Except ShimError m.Response}
    (h : m.Replays fate w result) :
    (replyOf (m.run fate w)).OfJournal ∨ replyOf (m.run fate w) = .ofResult result ∨
      replyOf (m.run fate w) = .lost := by
  rcases h.ends with ⟨e, he, hrun⟩ | ⟨-, hrun⟩ | hrun
  · rw [hrun]
    exact Or.inl ⟨e, he, rfl⟩
  · rw [hrun]
    exact Or.inr (Or.inr rfl)
  · rw [hrun]
    exact Or.inr (Or.inl (replyOf_liftValid result w))

end Calls

/-! ### Replies on their way back -/

section Replies

variable [Wire] {ι : Type u}

/-- What the client of a call has been told, if anything: the reply of its task, or the status
that `RunMutation` makes of what `Enqueue` threw. -/
def RunState.told (rpc : Rpc) : RunState RpcAnswer → Option RpcAnswer
  | .returned answer => some answer
  | .queueFull => (statusFromException .queueFull).map fun status => ⟨rpc, .error status⟩
  | .workerStopped => (statusFromException .workerStopped).map fun status => ⟨rpc, .error status⟩
  | .notCalled | .notifying | .waiting => none

/-- A call turned away was never run. -/
theorem EngineWorker.Coherent.not_executed [DecidableEq ι]
    {worker : EngineWorker ι Empty RpcAnswer} (h : worker.Coherent) {call : ι}
    (hrejected : (worker.runs call).Rejected) : call ∉ worker.executed := by
  intro hexecuted
  have haccepted : call ∈ worker.accepted := by
    rw [h.order, List.append_assoc]
    exact List.mem_append_left _ hexecuted
  exact hrejected.not_accepted ((h.called call).mp haccepted)

variable [Engine] [DayTimes] [Balances]

/-- A request whose answer is lost is the last one of its process. -/
theorem Daemon.serving_of_lost {rpc : Rpc} {fate : RpcFate} {d : Daemon}
    (hserving : d.serving = true) (h : (rpc.answer fate d.world).2 = .lost) :
    (d.serve rpc fate).serving = false := by
  have hlost : replyOf (rpc.run fate d.world) = .lost := h
  rw [Daemon.serve, if_pos hserving]
  cases hrun : rpc.run fate d.world with
  | ok a w' =>
    rw [hrun] at hlost
    cases hlost
  | error e w' =>
    cases e with
    | killed => rfl
    | shim s => rw [hrun] at hlost; cases hlost
    | queueFull => rw [hrun] at hlost; cases hlost
    | workerStopped => rw [hrun] at hlost; cases hlost
    | other what => rw [hrun] at hlost; cases hlost

variable [DecidableEq ι] {traffic : Traffic ι} {maxDepth : ℕ}

/-- No caller is left a lost answer: one event. -/
theorem Stepped.not_lost {s s' : Server ι} {o : Option (Op ι)}
    (hstep : Server.Stepped traffic maxDepth s s' o)
    (h : ∀ call answer, s.worker.futures call = some answer → answer.2 ≠ .lost) (call : ι)
    (answer : RpcAnswer) (hfuture : s'.worker.futures call = some answer) : answer.2 ≠ .lost := by
  cases hstep with
  | began hdown => cases hfuture
  | queued step => exact h call answer (QueueStep.futures_eq s.worker step ▸ hfuture)
  | @served task hserving hrunning halive =>
    by_cases hcall : call = task
    · subst hcall
      simp only [EngineWorker.finish, Function.update_self, Option.some.injEq] at hfuture
      subst hfuture
      intro hlost
      rw [Daemon.serving_of_lost hserving hlost] at halive
      cases halive
    · simp only [EngineWorker.finish, Function.update_of_ne hcall] at hfuture
      exact h call answer hfuture
  | died hserving hdead => exact h call answer hfuture
  | passed hserving hop => exact h call answer hfuture

/-- Whoever is answered is answered something. -/
theorem Server.answer_not_lost (config : Config) (b₀ : Book) (es : List (Server.Event ι)) {call : ι}
    {answer : RpcAnswer}
    (h : ((Server.fresh maxDepth config b₀).run traffic maxDepth es).worker.runs call
      = .returned answer) : answer.2 ≠ .lost := by
  have hcoherent : ((Server.fresh maxDepth config b₀).run traffic maxDepth es).worker.Coherent :=
    Server.run_coherent (EngineWorker.create_coherent maxDepth) es
  have hfutures : ∀ call answer, ((Server.fresh maxDepth config b₀).run traffic maxDepth
      es).worker.futures call = some answer → answer.2 ≠ .lost := by
    refine Machine.run_invariant_history
      (I := fun _ (s : Server ι) => ∀ call answer, s.worker.futures call = some answer →
        answer.2 ≠ .lost)
      (fun _ _ hfuture => by cases hfuture) fun es e hes => ?_
    exact Stepped.not_lost (Server.stepped _ e) hes
  exact hfutures call answer (hcoherent.returned call answer h)

end Replies

/-! ### Requests sent again -/

section Clients

variable [Wire] [Engine] [DayTimes] [Balances] {ι : Type u} [DecidableEq ι]
  (traffic : Traffic ι) (maxDepth : ℕ)

/-- Whoever sends the request from now on hears of an error of the journal or gets the result. -/
def AlwaysTold (s : Server ι) (m : Mutation) (result : Except ShimError m.Response) : Prop :=
  ∀ later call r, traffic.rpc call = .mutate m → s.worker.runs call = .notCalled →
    ((s.run traffic maxDepth later).worker.runs call).told (.mutate m) = some ⟨.mutate m, r⟩ →
    r.OfJournal ∨ r = .ofResult result

/-- What becomes of a request that came to `result` when it is sent again. -/
structure SentAgain (s : Server ι) (m : Mutation) (result : Except ShimError m.Response) :
    Prop where
  /-- In its turn it changes nothing, whatever stops it, and its handler is never called. -/
  turns : ∀ later call before after, traffic.rpc call = .mutate m →
    s.serial traffic maxDepth later = before ++ .serve call :: after →
    let w := (Machine.run (Daemon.perform traffic) s.daemon before).world
    m.Replays (traffic.fate call).mutation w result ∧
      ∀ apply, MutatingCall.run { m.call with apply } (traffic.fate call).mutation w
        = m.run (traffic.fate call).mutation w
  /-- Its client hears of an error of the journal or gets the result, unless the queue had no
  place for it, and then it has no turn. -/
  told : ∀ later call r, traffic.rpc call = .mutate m → s.worker.runs call = .notCalled →
    ((s.run traffic maxDepth later).worker.runs call).told (.mutate m) = some ⟨.mutate m, r⟩ →
    r.OfJournal ∨ r = .ofResult result ∨
      ((s.run traffic maxDepth later).worker.runs call).Rejected ∧
        call ∉ (s.run traffic maxDepth later).worker.executed

/-- What an outcome on record at the end of the run `es` is from then on. -/
structure Final (config : Config) (b₀ : Book) (es : List (Server.Event ι)) (id : String)
    (row : Applied) : Prop where
  kept : ∀ later, ((Server.fresh maxDepth config b₀).run traffic maxDepth
    (es ++ later)).daemon.world.journal.resolved id = some row
  /-- It is what a call of the run came to, and everybody hears it who sends that request again. -/
  replayed : ∃ m fate w result,
    Called (Daemon.fresh config b₀) (Op.events traffic
      ((Server.fresh maxDepth config b₀).serial traffic maxDepth es)) m fate w ∧
    m.mutationId = id ∧ m.CameTo fate w result ∧
    SentAgain traffic maxDepth ((Server.fresh maxDepth config b₀).run traffic maxDepth es) m result

variable {traffic maxDepth}

/-- Requests sent again, given what their turns come to. -/
theorem SentAgain.of_replays {s : Server ι} {m : Mutation} {result : Except ShimError m.Response}
    (hcoherent : s.worker.Coherent)
    (hlost : ∀ later call answer, (s.run traffic maxDepth later).worker.runs call
      = .returned answer → answer.2 ≠ .lost)
    (hreplays : ∀ ops fate,
      m.Replays fate (Machine.run (Daemon.perform traffic) s.daemon ops).world result)
    (hresolved : ∀ ops, (Machine.run (Daemon.perform traffic) s.daemon
      ops).world.journal.resolved m.mutationId ≠ none) :
    SentAgain traffic maxDepth s m result := by
  refine ⟨fun later call before after hcall hserial => ⟨hreplays before _, fun apply => ?_⟩,
    fun later call r hcall hnot htold => ?_⟩
  · exact Mutation.run_of_not_applies (fun happlies => hresolved before happlies.unresolved) apply
  have hlater : (s.run traffic maxDepth later).worker.Coherent :=
    Server.run_coherent hcoherent later
  cases hruns : (s.run traffic maxDepth later).worker.runs call with
  | returned answer =>
    rw [hruns] at htold
    obtain rfl : answer = ⟨.mutate m, r⟩ := Option.some.inj htold
    -- The reply is that of the turn, and it has arrived.
    obtain ⟨before, after, -, -, hanswer⟩ :=
      (linearized hcoherent later).answered call _ hnot hruns
    have hr := Rpc.answer_mutate hcall hanswer
    rcases (hreplays before (traffic.fate call).mutation).reply with hjournal | hresult | hgone
    · exact Or.inl (hr ▸ hjournal)
    · exact Or.inr (Or.inl (hr.trans hresult))
    · exact absurd (hr.trans hgone) (hlost later call _ hruns)
  | queueFull =>
    have hrejected : ((s.run traffic maxDepth later).worker.runs call).Rejected := by
      rw [hruns]
      trivial
    exact Or.inr (Or.inr ⟨trivial, hlater.not_executed hrejected⟩)
  | workerStopped =>
    have hrejected : ((s.run traffic maxDepth later).worker.runs call).Rejected := by
      rw [hruns]
      trivial
    exact Or.inr (Or.inr ⟨trivial, hlater.not_executed hrejected⟩)
  | notCalled => rw [hruns] at htold; cases htold
  | notifying => rw [hruns] at htold; cases htold
  | waiting => rw [hruns] at htold; cases htold

/-- **Replay is stable**, for any number of clients. -/
theorem resends_replayed (config : Config) (b₀ : Book) (es : List (Server.Event ι)) {id : String}
    {row : Applied}
    (hrow : ((Server.fresh maxDepth config b₀).run traffic maxDepth
      es).daemon.world.journal.resolved id = some row) :
    Final traffic maxDepth config b₀ es id row := by
  have hdaemon : ((Server.fresh maxDepth config b₀).run traffic maxDepth es).daemon
      = (Daemon.fresh config b₀).run
          (Op.events traffic ((Server.fresh maxDepth config b₀).serial traffic maxDepth es)) :=
    Server.run_events _ es
  have hsound := Daemon.Sound.run config b₀ (Op.events traffic
    ((Server.fresh maxDepth config b₀).serial traffic maxDepth es))
  have hrow₀ := hrow
  rw [hdaemon] at hrow₀
  have hstays : ∀ ops, (Machine.run (Daemon.perform traffic)
      ((Server.fresh maxDepth config b₀).run traffic maxDepth es).daemon
        ops).world.journal.resolved id = some row := by
    intro ops
    rw [hdaemon, Daemon.run_events]
    exact hsound.down.resolved_run hrow₀ _
  obtain ⟨hmem, hid⟩ := Journal.resolved_eq_some.mp hrow₀
  obtain ⟨m, fate, w, recorded, hcalled, hm, hbytes, hcomputed⟩ := hsound.journal.applied row hmem
  obtain rfl : m.mutationId = id := hm.trans hid
  have hparse : Wire.outcome.parse row.outcome = some recorded := by
    rw [hbytes, Wire.outcome.parse_serialize]
  have hresent : SentAgain traffic maxDepth
      ((Server.fresh maxDepth config b₀).run traffic maxDepth es) m (m.call.replay recorded) := by
    refine SentAgain.of_replays (Server.run_coherent (EngineWorker.create_coherent maxDepth) es)
      (fun later call answer hreturned => ?_)
      (fun ops fate' => hcomputed.replays (hstays ops) hparse fate') fun ops hnone => ?_
    · rw [Server.run, Server.run, ← Machine.run_append] at hreturned
      exact Server.answer_not_lost config b₀ _ hreturned
    · rw [hstays ops] at hnone
      cases hnone
  refine ⟨fun later => ?_, m, fate, w, _, hcalled, rfl, hcomputed.cameTo, hresent⟩
  rw [Server.run, Machine.run_append, Server.run_daemon]
  exact hstays _

end Clients

section Witness

open Reference

attribute [local instance] Reference.engine Reference.wire Reference.dayTimes Reference.balances

/-- The outcome that the second process puts on record for a post that was killed behind its
commit. -/
theorem resends_replayed_resentPost : ∃ row,
    Final resentPost 256 config book (resentRun.take 7) (post '1' 100).mutationId row := by
  have hsome : (((Server.fresh 256 config book).run resentPost 256
      (resentRun.take 7)).daemon.world.journal.resolved (post '1' 100).mutationId).isSome
        = true := by decide +kernel
  obtain ⟨row, hrow⟩ := Option.isSome_iff_exists.mp hsome
  exact ⟨row, resends_replayed config book (resentRun.take 7) hrow⟩

/-- One post, sent by three clients. -/
def threePosts : Traffic (Fin 3) := ⟨fun _ => .mutate (post '1' 100), fun _ => calmRpc 16⟩

/-- The daemon has room for one task, and the first client has been served. -/
def firstServed : Server (Fin 3) :=
  (Server.fresh 1 config book).run threePosts 1
    (.start (starts []) :: Server.roundTrip ⟨0, Nat.succ_pos 2⟩)

/-- The second client waits for its turn when the third one calls. -/
theorem firstServed_full : firstServed.worker.runs 2 = .notCalled ∧
    (firstServed.run threePosts 1 [.queue (.enqueue 1), .queue (.enqueue 2)]).worker.runs 2
      = .queueFull := by
  have hup : (Daemon.step (Server.fresh (ι := Fin 3) 1 config book).daemon
      (.start (starts []))).serving = true := by decide +kernel
  have hresting : ((Server.fresh 1 config book).step threePosts 1 (.start (starts []))).Resting :=
    Server.resting_start threePosts rfl hup Nat.one_pos
  have halive : (((Server.fresh 1 config book).step threePosts 1 (.start (starts []))).daemon.serve
      (threePosts.rpc 0) (threePosts.fate 0)).serving = true := by decide +kernel
  obtain ⟨hserved, -, hruns⟩ := hresting.roundTrip rfl halive
  have hruns : firstServed.worker.runs = Function.update (fun _ => .notCalled) 0 (.returned
      ((threePosts.rpc 0).answer (threePosts.fate 0) ((Server.fresh 1 config book).step threePosts 1
        (.start (starts []))).daemon.world)) := hruns
  have hserved : firstServed.Resting := hserved
  have hroom : firstServed.worker.maxDepth = 1 := by decide +kernel
  refine ⟨by simp [hruns], ?_⟩
  simp [Server.step, hserved.serving, QueueStep.event, EngineWorker.step, hruns,
    EngineWorker.enqueue, hserved.accepting, hserved.queue, hroom]

/-- A client that the queue has no place for hears neither the outcome on record nor of an error
of the journal. -/
theorem resend_turned_away :
    (firstServed.daemon.world.journal.resolved (post '1' 100).mutationId).isSome = true ∧
      ∀ result, ¬AlwaysTold threePosts 1 firstServed (post '1' 100) result := by
  refine ⟨by decide +kernel, fun result htold => ?_⟩
  have hlater := htold [.queue (.enqueue 1), .queue (.enqueue 2)] 2
    (.error (packStatus .resourceExhausted .unspecified "engine queue full" "")) rfl
    firstServed_full.1 (by rw [firstServed_full.2]; rfl)
  -- Neither has its gRPC code.
  have hcodes : ∀ code, grpcCodeFor code ≠ .resourceExhausted := by
    intro code hcode
    cases code <;> cases hcode
  rcases hlater with ⟨e, -, hstatus⟩ | hresult
  · simp only [Reply.error.injEq, ShimError.toStatus, packStatus, Status.error.injEq] at hstatus
    exact hcodes e.code hstatus.1.symm
  · cases result with
    | ok response => cases hresult
    | error e =>
      simp only [Reply.ofResult, Reply.error.injEq, ShimError.toStatus, packStatus,
        Status.error.injEq] at hresult
      exact hcodes e.code hresult.1.symm

end Witness

end Daichod
