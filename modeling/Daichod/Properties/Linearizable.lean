import Daichod.Server

/-!
# Daichod.Properties.Linearizable

**Clients see one request at a time.** However many threads call, and however often the process
dies and starts again, every answer is the one the request gets from a daemon that serves the
requests of the run one after the other (`linearizable`). The turn of a call lies between the
call and its answer, so the serial order never contradicts real time; the turns of one process
come in the order in which the queue accepted the calls, one turn a call, and a call that was
turned away has none.

## Proof shape

A future is filled by the task of its call and by nothing else, so that an answer determines a
turn: one event adds at most one turn (`Stepped.answered`), and the rest is induction along the run
(`linearized`). That the turns of one process are in the order of its queue is read off `Coherent`
(`inOrder`).
-/

universe u

namespace Daichod

variable {ι : Type u}

/-! ### The queue between two tasks

Between two tasks the queue accepts and hands out calls, and executes none. -/

namespace EngineWorker

variable {δ : Type*} {ρ : Type*}

/-- What was never called has no result. -/
theorem Coherent.futures_eq_none [DecidableEq ι] [DecidableEq δ] {w : EngineWorker ι δ ρ}
    (h : w.Coherent) {call : ι} (hcall : w.runs call = .notCalled) : w.futures call = none := by
  cases hfuture : w.futures call with
  | none => rfl
  | some result =>
    have hexecuted : call ∈ w.executed := (h.results call).mp (by rw [hfuture]; rfl)
    have haccepted : call ∈ w.accepted := by
      rw [h.order, List.append_assoc]
      exact List.mem_append_left _ hexecuted
    have := (h.called call).mp haccepted
    rw [hcall] at this
    exact this.elim

end EngineWorker

section Steps

variable [Wire] [DecidableEq ι] (w : EngineWorker ι Empty RpcAnswer) (step : QueueStep ι)

/-- A step of the queue runs nothing. -/
theorem QueueStep.executed_eq : (w.step step.event).executed = w.executed := by
  -- enqueueing, notifying, receiving, looping and waking up: none ends a task
  cases step with
  | enqueue call =>
    simp only [QueueStep.event, EngineWorker.step]
    split
    · unfold EngineWorker.enqueue
      split
      · rfl
      · split <;> rfl
    · rfl
  | notify call =>
    simp only [QueueStep.event, EngineWorker.step]
    split <;> rfl
  | receive call =>
    simp only [QueueStep.event, EngineWorker.step]
    split <;> rfl
  | loop =>
    simp only [QueueStep.event, EngineWorker.step]
    split
    · unfold EngineWorker.loopSection
      split
      · split <;> rfl
      · rfl
    · rfl
  | wake => rfl

/-- A step of the queue brings no result. -/
theorem QueueStep.futures_eq : (w.step step.event).futures = w.futures := by
  -- none of them fills a future either
  cases step with
  | enqueue call =>
    simp only [QueueStep.event, EngineWorker.step]
    split
    · unfold EngineWorker.enqueue
      split
      · rfl
      · split <;> rfl
    · rfl
  | notify call =>
    simp only [QueueStep.event, EngineWorker.step]
    split <;> rfl
  | receive call =>
    simp only [QueueStep.event, EngineWorker.step]
    split <;> rfl
  | loop =>
    simp only [QueueStep.event, EngineWorker.step]
    split
    · unfold EngineWorker.loopSection
      split
      · split <;> rfl
      · rfl
    · rfl
  | wake => rfl

end Steps

/-! ### Turns

A turn is one `serve` of the serial order, with the answer it gives in its world. -/

section Linearizable

variable [Wire] [Engine] [DayTimes] [Balances]

/-- A call has a turn in a serial order, and this is what it is answered there. -/
def Turn (traffic : Traffic ι) (d : Daemon) (ops : List (Op ι)) (call : ι) (answer : RpcAnswer) :
    Prop :=
  ∃ before after, ops = before ++ .serve call :: after ∧
    (Machine.run (Daemon.perform traffic) d before).serving = true ∧
    answer = (traffic.rpc call).answer (traffic.fate call)
      (Machine.run (Daemon.perform traffic) d before).world

/-- A turn stays where it is when the order goes on. -/
theorem Turn.append {traffic : Traffic ι} {d : Daemon} {ops : List (Op ι)} {call : ι}
    {answer : RpcAnswer} (h : Turn traffic d ops call answer) (ops' : List (Op ι)) :
    Turn traffic d (ops ++ ops') call answer := by
  obtain ⟨before, after, rfl, hserving, hanswer⟩ := h
  exact ⟨before, after ++ ops', by simp, hserving, hanswer⟩

variable [DecidableEq ι] (traffic : Traffic ι) (maxDepth : ℕ)

/-- A stretch of a run is a serial one, as its clients see it. -/
structure Linearized (s : Server ι) (events : List (Server.Event ι)) : Prop where
  /-- The daemon ends where the serial order leads. -/
  daemon : (s.run traffic maxDepth events).daemon
    = Machine.run (Daemon.perform traffic) s.daemon (s.serial traffic maxDepth events)
  /-- A call made and answered in the stretch has its turn in the stretch. -/
  answered : ∀ call answer, s.worker.runs call = .notCalled →
    (s.run traffic maxDepth events).worker.runs call = .returned answer →
    Turn traffic s.daemon (s.serial traffic maxDepth events) call answer

/-- What the queue of a running process has to do with the serial order so far. -/
structure InOrder (s : Server ι) (ops : List (Op ι)) : Prop where
  /-- The turns since the start of the process are those of the tasks that were run. -/
  turns : ∃ earlier fate life, ops = earlier ++ .start fate :: life ∧
    life.filterMap Op.call? = s.worker.executed
  accepted : s.worker.executed <+: s.worker.accepted
  once : s.worker.accepted.Nodup
  rejected : ∀ call, (s.worker.runs call).Rejected → call ∉ s.worker.executed

variable {traffic maxDepth}

open Server (Stepped)

/-- Results come from turns: one event. -/
theorem Stepped.answered {s₀ s s' : Server ι} {ops : List (Op ι)} {o : Option (Op ι)}
    (hstep : Stepped traffic maxDepth s s' o)
    (hs : s.daemon = Machine.run (Daemon.perform traffic) s₀.daemon ops)
    (h : ∀ call answer, s.worker.futures call = some answer →
      s₀.worker.futures call = some answer ∨ Turn traffic s₀.daemon ops call answer)
    (call : ι) (answer : RpcAnswer) (hfuture : s'.worker.futures call = some answer) :
    s₀.worker.futures call = some answer ∨ Turn traffic s₀.daemon (ops ++ o.toList) call answer := by
  have known : s.worker.futures call = some answer →
      s₀.worker.futures call = some answer ∨
        Turn traffic s₀.daemon (ops ++ o.toList) call answer :=
    fun hold => (h call answer hold).imp_right fun hturn => hturn.append _
  cases hstep with
  | began hdown => cases hfuture
  | queued step => exact known (QueueStep.futures_eq s.worker step ▸ hfuture)
  | @served task hserving hrunning halive =>
    by_cases hcall : call = task
    · subst hcall
      -- The task that ends here has its turn here.
      simp only [EngineWorker.finish, Function.update_self, Option.some.injEq] at hfuture
      exact Or.inr ⟨ops, [], rfl, hs ▸ hserving, by rw [← hs, hfuture]⟩
    · simp only [EngineWorker.finish, Function.update_of_ne hcall] at hfuture
      exact known hfuture
  | died hserving hdead => exact known hfuture
  | passed hserving hop => exact known hfuture

/-- A stretch from any state whose queue is coherent. -/
theorem linearized {s : Server ι} (h : s.worker.Coherent) (events : List (Server.Event ι)) :
    Linearized traffic maxDepth s events := by
  refine ⟨Server.run_daemon s events, fun call answer hcall hreturned => ?_⟩
  have hturn : ∀ call answer, (s.run traffic maxDepth events).worker.futures call = some answer →
      s.worker.futures call = some answer ∨
        Turn traffic s.daemon (s.serial traffic maxDepth events) call answer := by
    refine Machine.run_invariant_history
      (I := fun es (s' : Server ι) => ∀ call answer, s'.worker.futures call = some answer →
        s.worker.futures call = some answer ∨
          Turn traffic s.daemon (s.serial traffic maxDepth es) call answer)
      (fun _ _ hfuture => Or.inl hfuture) fun es e hes => ?_
    rw [Server.serial_concat]
    exact Stepped.answered (Server.stepped _ e) (Server.run_daemon s es) hes
  have hfuture := (Server.run_coherent h events).returned call answer hreturned
  rcases hturn call answer hfuture with hold | hturn
  · rw [h.futures_eq_none hcall] at hold
    cases hold
  · exact hturn

/-- The turns of the running process: one event. -/
theorem Stepped.turns {s s' : Server ι} {ops : List (Op ι)} {o : Option (Op ι)}
    (hstep : Stepped traffic maxDepth s s' o)
    (h : s.daemon.serving = true → ∃ earlier fate life, ops = earlier ++ .start fate :: life ∧
      life.filterMap Op.call? = s.worker.executed)
    (hserving' : s'.daemon.serving = true) :
    ∃ earlier fate life, ops ++ o.toList = earlier ++ .start fate :: life ∧
      life.filterMap Op.call? = s'.worker.executed := by
  -- What the event performs belongs to the life of the process.
  have goesOn : s.daemon.serving = true →
      s'.worker.executed = s.worker.executed ++ o.toList.filterMap Op.call? →
      ∃ earlier fate life, ops ++ o.toList = earlier ++ .start fate :: life ∧
        life.filterMap Op.call? = s'.worker.executed := by
    intro hserving hexecuted
    obtain ⟨earlier, fate, life, rfl, hturns⟩ := h hserving
    exact ⟨earlier, fate, life ++ o.toList, by simp, by rw [List.filterMap_append, hturns, hexecuted]⟩
  cases hstep with
  | @began fate hdown => exact ⟨ops, fate, [], rfl, rfl⟩
  | queued step =>
    refine goesOn hserving' ?_
    simp [QueueStep.executed_eq]
  | served hserving hrunning halive => exact goesOn hserving rfl
  | died hserving hdead => exact absurd hserving' hdead
  | passed hserving hop =>
    refine goesOn (hserving hserving') ?_
    cases o with
    | none => simp
    | some o =>
      cases o with
      | serve call => exact absurd rfl (hop call)
      | start fate => simp [Op.call?]
      | terminate fate => simp [Op.call?]
      | kill => simp [Op.call?]
      | restore book => simp [Op.call?]

variable (traffic maxDepth)

/-- The turns of a running process. -/
theorem inOrder (config : Config) (b₀ : Book) {events : List (Server.Event ι)}
    (hserving : ((Server.fresh maxDepth config b₀).run traffic maxDepth events).daemon.serving
      = true) :
    InOrder ((Server.fresh maxDepth config b₀).run traffic maxDepth events)
      ((Server.fresh maxDepth config b₀).serial traffic maxDepth events) := by
  have hcoherent : ((Server.fresh maxDepth config b₀).run traffic maxDepth events).worker.Coherent :=
    Server.run_coherent (EngineWorker.create_coherent maxDepth) events
  have hfront : ((Server.fresh maxDepth config b₀).run traffic maxDepth events).worker.executed
      <+: ((Server.fresh maxDepth config b₀).run traffic maxDepth events).worker.accepted := by
    rw [hcoherent.order, List.append_assoc]
    exact List.prefix_append _ _
  refine ⟨?_, hfront, hcoherent.nodup, fun call hrejected hexecuted => ?_⟩
  · refine Machine.run_invariant_history
      (I := fun es (s : Server ι) => s.daemon.serving = true → ∃ earlier fate life,
        (Server.fresh maxDepth config b₀).serial traffic maxDepth es
          = earlier ++ .start fate :: life ∧ life.filterMap Op.call? = s.worker.executed)
      (fun h => by cases h) (fun es e hes => ?_) hserving
    rw [Server.serial_concat]
    exact Stepped.turns (Server.stepped _ e) hes
  · exact hrejected.not_accepted ((hcoherent.called call).mp (hfront.subset hexecuted))

/-- **Linearizability.** Any stretch of any run is a serial one for the clients that call in it,
and the turns of a running process are the tasks its queue has accepted and run, in order. -/
theorem linearizable (config : Config) (b₀ : Book) (es events : List (Server.Event ι)) :
    let s := (Server.fresh maxDepth config b₀).run traffic maxDepth es
    Linearized traffic maxDepth s events ∧
      (s.daemon.serving = true →
        InOrder s ((Server.fresh maxDepth config b₀).serial traffic maxDepth es)) := by
  intro s
  have hcoherent : s.worker.Coherent :=
    Server.run_coherent (EngineWorker.create_coherent maxDepth) es
  exact ⟨linearized hcoherent events, fun hserving => inOrder traffic maxDepth config b₀ hserving⟩

end Linearizable

end Daichod
