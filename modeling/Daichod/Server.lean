import Daichod.Engine.Worker
import Daichod.Library.Refinement
import Daichod.Rpc.Handlers

/-!
# Daichod.Server

The daemon with its clients (`main.cpp`, `engine/worker.cpp`, `rpc/rpc_util.h`): any number of
client threads put their requests into the engine queue, the engine thread takes them out and
runs them on the world, and the process starts, is terminated and is killed in between.

A task is one step of this machine, since nobody but the engine thread sees the world. It is
carried out by the daemon (`Daemon.perform`), which serves one request at a time: the machine
refines the daemon (`Server.run_daemon`), and what it performs is the serial order of the
run.
-/

universe u

namespace Daichod

variable [Wire] {ι : Type u}

/-- The calls that clients can make: what each asks, and how it fares. -/
structure Traffic (ι : Type u) where
  rpc : ι → Rpc
  fate : ι → RpcFate

/-- The daemon, and the queue in front of its engine thread. Only the queue of the last
process is kept. -/
structure Server (ι : Type u) where
  daemon : Daemon
  worker : EngineWorker ι Empty RpcAnswer

/-- A step of the queue, other than that a task ends. `Drain` is not called before the last
client is gone. -/
inductive QueueStep (ι : Type u)
  | enqueue (call : ι)
  | notify (call : ι)
  | receive (call : ι)
  | loop
  | wake

/-- The step, as an event of the queue. -/
def QueueStep.event : QueueStep ι → EngineWorker.Event ι Empty RpcAnswer
  | .enqueue call => .enqueue call
  | .notify call => .notify call
  | .receive call => .receive call
  | .loop => .loop
  | .wake => .wake

/-! ### The serial daemon

What remains of a run when the queue and the clients are taken away: starts, requests,
terminations, kills and restored books, in the order in which they happened. -/

/-- What happens to a daemon whose requests are served one at a time. -/
inductive Op (ι : Type u)
  | start (fate : StartFate)
  | serve (call : ι)
  | terminate (fate : CloseFate)
  | kill
  | restore (book : Book)

/-- The request served. -/
def Op.call? : Op ι → Option ι
  | .serve call => some call
  | _ => none

section Serial

variable [Engine] [DayTimes] [Balances] (traffic : Traffic ι)

/-- The daemon after one operation. -/
def Daemon.perform (d : Daemon) : Op ι → Daemon
  | .start fate => d.step (.start fate)
  | .serve call => d.serve (traffic.rpc call) (traffic.fate call)
  | .terminate fate => d.step (.terminate fate)
  | .kill => d.step .kill
  | .restore book => d.step (.restore book)

omit [Engine] [DayTimes] [Balances] in
/-- The operation as an event of the daemon, unless it only looks. -/
def Op.event : Op ι → Option Event
  | .start fate => some (.start fate)
  | .serve call => (traffic.rpc call).event (traffic.fate call)
  | .terminate fate => some (.terminate fate)
  | .kill => some .kill
  | .restore book => some (.restore book)

/-- An operation is one event of the daemon, or none where the request only looks. -/
theorem Daemon.perform_eq (d : Daemon) (o : Op ι) :
    d.perform traffic o = (o.event traffic).elim d d.step := by
  cases o with
  | serve call => exact d.serve_eq _ _
  | start fate => rfl
  | terminate fate => rfl
  | kill => rfl
  | restore book => rfl

/-- The events of a daemon that some operations are. -/
def Op.events (ops : List (Op ι)) : List Event := ops.filterMap (Op.event traffic)

omit [Wire] [Engine] [DayTimes] [Balances] in
/-- Operations one after another are their events one after another. -/
@[simp] theorem Op.events_append (ops ops' : List (Op ι)) :
    events traffic (ops ++ ops') = events traffic ops ++ events traffic ops' :=
  List.filterMap_append

/-- Serving requests one at a time is a run of the daemon. -/
theorem Daemon.run_events (d : Daemon) (ops : List (Op ι)) :
    Machine.run (perform traffic) d ops = d.run (Op.events traffic ops) := by
  have hstep : ∀ (d : Daemon) (o : Op ι), id (d.perform traffic o)
      = (o.event traffic).elim (id d) (Daemon.step (id d)) := fun d o => d.perform_eq traffic o
  have h : Machine.run (perform traffic) d ops = Machine.run Daemon.step d
      (Machine.performed (perform traffic) (fun _ o => o.event traffic) d ops) :=
    Machine.run_performed hstep
  rwa [Machine.performed_eq_filterMap] at h

end Serial

/-! ### The machine -/

namespace Server

/-- What can happen next. -/
inductive Event (ι : Type u)
  | start (fate : StartFate)
  | queue (step : QueueStep ι)
  /-- The engine thread runs the task it has taken. -/
  | execute
  /-- SIGTERM has stopped new requests, and the last handler has returned. -/
  | terminate (fate : CloseFate)
  | kill
  | restore (book : Book)

/-- No handler is between the queue and its client. -/
def Idle (s : Server ι) : Prop :=
  ∀ call ∈ s.worker.accepted, (s.worker.runs call).isReturned = true

instance (s : Server ι) : Decidable s.Idle := inferInstanceAs (Decidable (∀ _ ∈ _, _))

variable [Engine] [DayTimes] [Balances] [DecidableEq ι] (traffic : Traffic ι) (maxDepth : ℕ)

/-- The engine thread runs a task to its end. A killed process keeps nothing of it. -/
def execute (s : Server ι) (call : ι) : Server ι :=
  let daemon := s.daemon.serve (traffic.rpc call) (traffic.fate call)
  if daemon.serving then
    { daemon
      worker := s.worker.finish call
        ((traffic.rpc call).answer (traffic.fate call) s.daemon.world) }
  else { s with daemon }

/-- One event. -/
def step (s : Server ι) : Event ι → Server ι
  | .start fate =>
    if s.daemon.serving then s
    else { daemon := s.daemon.step (.start fate), worker := .create maxDepth }
  | .queue step =>
    if s.daemon.serving then { s with worker := s.worker.step step.event } else s
  | .execute =>
    if s.daemon.serving then
      match s.worker.loop with
      | .running call => s.execute traffic call
      | _ => s
    else s
  | .terminate fate =>
    if s.daemon.serving ∧ s.Idle then { s with daemon := s.daemon.step (.terminate fate) } else s
  | .kill => { s with daemon := s.daemon.step .kill }
  | .restore book => { s with daemon := s.daemon.step (.restore book) }

/-- The server after a run. -/
abbrev run (s : Server ι) (events : List (Event ι)) : Server ι :=
  Machine.run (step traffic maxDepth) s events

/-- The operation of the serial daemon that an event performs. -/
def op (s : Server ι) : Event ι → Option (Op ι)
  | .start fate => if s.daemon.serving then none else some (.start fate)
  | .queue _ => none
  | .execute => if s.daemon.serving then s.worker.loop.task.head?.map .serve else none
  | .terminate fate => if s.daemon.serving ∧ s.Idle then some (.terminate fate) else none
  | .kill => some .kill
  | .restore book => some (.restore book)

/-- The serial order of a run. -/
abbrev serial (s : Server ι) (events : List (Event ι)) : List (Op ι) :=
  Machine.performed (step traffic maxDepth) op s events

/-- Not running, over a book and a fresh journal. -/
def fresh (config : Config) (b : Book) : Server ι :=
  { daemon := Daemon.fresh config b, worker := .create maxDepth }

/-! ### The serial order

A task is performed by one `execute`, so the order in which tasks are performed is an order of
whole requests. `Server.op` says which operation an event performs, and `step_daemon` that the
daemon makes exactly that step. -/

variable {traffic maxDepth} {s : Server ι} {call : ι}

/-- A task that leaves the process alive ends with its answer in the client's future. -/
theorem execute_of_serving
    (h : (s.daemon.serve (traffic.rpc call) (traffic.fate call)).serving = true) :
    s.execute traffic call =
      { daemon := s.daemon.serve (traffic.rpc call) (traffic.fate call)
        worker := s.worker.finish call
          ((traffic.rpc call).answer (traffic.fate call) s.daemon.world) } :=
  if_pos h

/-- A task in which the process dies leaves the queue as it is. -/
theorem execute_of_not_serving
    (h : ¬(s.daemon.serve (traffic.rpc call) (traffic.fate call)).serving = true) :
    s.execute traffic call
      = { s with daemon := s.daemon.serve (traffic.rpc call) (traffic.fate call) } :=
  if_neg h

/-- In both cases the daemon has served the request. -/
@[simp] theorem execute_daemon : (s.execute traffic call).daemon
    = s.daemon.serve (traffic.rpc call) (traffic.fate call) := by
  by_cases h : (s.daemon.serve (traffic.rpc call) (traffic.fate call)).serving = true
  · rw [execute_of_serving h]
  · rw [execute_of_not_serving h]

/-- **One event** does to the daemon what the operation it performs does. -/
theorem step_daemon (s : Server ι) (e : Event ι) : (s.step traffic maxDepth e).daemon
    = (s.op e).elim s.daemon (s.daemon.perform traffic) := by
  cases e with
  | start fate =>
    simp only [step, op]
    split <;> rfl
  | queue step =>
    simp only [Server.step, op]
    split <;> rfl
  | execute =>
    simp only [step, op]
    split
    · cases s.worker.loop with
      | running call => exact execute_daemon
      | ready => rfl
      | asleep => rfl
      | exited => rfl
    · rfl
  | terminate fate =>
    simp only [step, op]
    split <;> rfl
  | kill => rfl
  | restore book => rfl

/-- **Every run** leaves the daemon that its serial order leads to. -/
theorem run_daemon (s : Server ι) (events : List (Event ι)) :
    (s.run traffic maxDepth events).daemon
      = Machine.run (Daemon.perform traffic) s.daemon (s.serial traffic maxDepth events) :=
  have hstep : ∀ (s : Server ι) (e : Event ι), Server.daemon (s.step traffic maxDepth e)
      = (s.op e).elim (Server.daemon s) (Daemon.perform traffic (Server.daemon s)) := step_daemon
  Machine.run_performed hstep

/-- The serial order of a run in two parts. -/
theorem serial_append (s : Server ι) (es es' : List (Event ι)) :
    s.serial traffic maxDepth (es ++ es') = s.serial traffic maxDepth es
      ++ (s.run traffic maxDepth es).serial traffic maxDepth es' := Machine.performed_append

/-- And with one event more. -/
theorem serial_concat (s : Server ι) (es : List (Event ι)) (e : Event ι) :
    s.serial traffic maxDepth (es ++ [e])
      = s.serial traffic maxDepth es ++ ((s.run traffic maxDepth es).op e).toList :=
  Machine.performed_concat

/-- A turn in a serial order is one of a running daemon. -/
theorem serial_serving {events : List (Event ι)} {before after : List (Op ι)}
    (h : s.serial traffic maxDepth events = before ++ .serve call :: after) :
    (Machine.run (Daemon.perform traffic) s.daemon before).serving = true := by
  have halong : Machine.Along (Daemon.perform traffic)
      (fun d o => ∀ call, o = .serve call → d.serving = true) s.daemon
      (s.serial traffic maxDepth events) := by
    refine (Machine.along_performed (s := s) step_daemon).mpr ?_
    -- an event that serves a request is an `execute`, which needs a process that serves
    have hevery : ∀ (s : Server ι) e o, s.op e = some o → ∀ call, o = .serve call →
        s.daemon.serving = true := by
      intro s e o ho call hcall
      subst hcall
      cases e with
      | execute =>
        simp only [op] at ho
        split at ho
        · assumption
        · cases ho
      | start fate => simp only [op] at ho; split at ho <;> cases ho
      | queue step => cases ho
      | terminate fate => simp only [op] at ho; split at ho <;> cases ho
      | kill => cases ho
      | restore book => cases ho
    exact (Machine.along_of_forall (P := fun _ => True).mpr fun _ _ => trivial).mono
      fun s e _ => hevery s e
  rw [h, Machine.along_append] at halong
  exact halong.2.1 call rfl

/-- The serial order, as a run of the daemon. -/
theorem run_events (s : Server ι) (events : List (Event ι)) :
    (s.run traffic maxDepth events).daemon
      = s.daemon.run (Op.events traffic (s.serial traffic maxDepth events)) := by
  rw [run_daemon, Daemon.run_events]

/-! ### What an event does

One inversion lemma for the machine, with a constructor for each way an event touches the process
and its queue. Invariants of the server go by cases on it. -/

/-- What an event does to the process and its queue, with the operation it performs. -/
inductive Stepped (traffic : Traffic ι) (maxDepth : ℕ) (s : Server ι) :
    Server ι → Option (Op ι) → Prop
  | began {fate : StartFate} (hdown : ¬s.daemon.serving = true) :
      Stepped traffic maxDepth s
        { daemon := s.daemon.step (.start fate), worker := .create maxDepth }
        (some (.start fate))
  | queued (step : QueueStep ι) :
      Stepped traffic maxDepth s { s with worker := s.worker.step step.event } none
  | served {call : ι} (hserving : s.daemon.serving = true)
      (hrunning : s.worker.loop = .running call)
      (halive : (s.daemon.serve (traffic.rpc call) (traffic.fate call)).serving = true) :
      Stepped traffic maxDepth s
        { daemon := s.daemon.serve (traffic.rpc call) (traffic.fate call)
          worker := s.worker.finish call
            ((traffic.rpc call).answer (traffic.fate call) s.daemon.world) }
        (some (.serve call))
  /-- The process died in the task. -/
  | died {call : ι} (hserving : s.daemon.serving = true)
      (hdead : ¬(s.daemon.serve (traffic.rpc call) (traffic.fate call)).serving = true) :
      Stepped traffic maxDepth s
        { s with daemon := s.daemon.serve (traffic.rpc call) (traffic.fate call) }
        (some (.serve call))
  /-- The queue is left alone, and no process begins. -/
  | passed {daemon : Daemon} {o : Option (Op ι)}
      (hserving : daemon.serving = true → s.daemon.serving = true)
      (hop : ∀ call, o ≠ some (.serve call)) : Stepped traffic maxDepth s { s with daemon } o

/-- **Every event** is one of these. -/
theorem stepped (s : Server ι) (e : Event ι) :
    Stepped traffic maxDepth s (s.step traffic maxDepth e) (s.op e) := by
  -- a guard that fails leaves the server as it is
  have stays : Stepped traffic maxDepth s s none := .passed (fun h => h) (by simp)
  cases e with
  | start fate =>
    simp only [step, op]
    split
    · exact stays
    · next hdown => exact .began hdown
  | queue step =>
    simp only [Server.step, op]
    split
    · exact .queued step
    · exact stays
  | execute =>
    simp only [step, op]
    split
    · next hserving =>
      cases hrunning : s.worker.loop with
      | running call =>
        dsimp only
        -- the task may be the process's last
        by_cases halive : (s.daemon.serve (traffic.rpc call) (traffic.fate call)).serving = true
        · rw [execute_of_serving halive]
          exact .served hserving hrunning halive
        · rw [execute_of_not_serving halive]
          exact .died hserving halive
      | ready => exact stays
      | asleep => exact stays
      | exited => exact stays
    · exact stays
  | terminate fate =>
    simp only [step, op]
    split
    · next h => exact .passed (fun _ => h.1) (by simp)
    · exact stays
  | kill => exact .passed (fun h => by cases h) (by simp [op])
  | restore book =>
    refine .passed (fun h => ?_) (by simp [op])
    simp only [Daemon.step] at h
    split at h
    · exact h
    · exact h

/-- The queue stays coherent, over all processes. -/
theorem Stepped.coherent {s' : Server ι} {o : Option (Op ι)}
    (hstep : Stepped traffic maxDepth s s' o) (h : s.worker.Coherent) : s'.worker.Coherent := by
  cases hstep with
  | began hdown => exact EngineWorker.create_coherent maxDepth
  | queued step => exact h.step _
  | served hserving hrunning halive => exact h.finish hrunning
  | died hserving hdead => exact h
  | passed hserving hop => exact h

/-- The queue is coherent over any run. -/
theorem run_coherent (h : s.worker.Coherent) (events : List (Event ι)) :
    (s.run traffic maxDepth events).worker.Coherent :=
  (Machine.along_of_forall (P := fun _ => True).mpr fun _ _ => trivial).invariant
    (I := fun s : Server ι => s.worker.Coherent) h fun s e h _ => (stepped s e).coherent h

/-! ### One client at a time

A call that meets an empty queue goes through it in five events. With it, runs of the daemon are
runs of the server, so that examples need not interleave. -/

/-- A call on a server at rest, from its start to its answer. -/
def roundTrip (call : ι) : List (Event ι) :=
  [.queue (.enqueue call), .queue (.notify call), .queue .loop, .execute, .queue (.receive call)]

/-- The process serves, and its queue is empty. -/
structure Resting (s : Server ι) : Prop where
  serving : s.daemon.serving = true
  ready : s.worker.loop = .ready
  queue : s.worker.queue = []
  accepting : s.worker.stopping = false
  room : 0 < s.worker.maxDepth

variable (traffic maxDepth) in
/-- A start begins with an empty queue. -/
theorem step_start (hdown : s.daemon.serving = false) (fate : StartFate) :
    s.step traffic maxDepth (.start fate)
      = { daemon := s.daemon.step (.start fate), worker := .create maxDepth } := by
  simp only [step, hdown, Bool.false_eq_true, if_false]

variable (traffic) in
/-- A process that has just started is at rest. -/
theorem resting_start {fate : StartFate} (hdown : s.daemon.serving = false)
    (hup : (s.daemon.step (.start fate)).serving = true) (hroom : 0 < maxDepth) :
    (s.step traffic maxDepth (.start fate)).Resting := by
  rw [step_start traffic maxDepth hdown]
  exact ⟨hup, rfl, rfl, rfl, hroom⟩

/-- **One client alone** is answered at once, and leaves the server at rest. -/
theorem Resting.roundTrip (h : s.Resting) (hcall : s.worker.runs call = .notCalled)
    (halive : (s.daemon.serve (traffic.rpc call) (traffic.fate call)).serving = true) :
    (s.run traffic maxDepth (roundTrip call)).Resting ∧
      (s.run traffic maxDepth (roundTrip call)).daemon
        = s.daemon.serve (traffic.rpc call) (traffic.fate call) ∧
      (s.run traffic maxDepth (roundTrip call)).worker.runs = Function.update s.worker.runs call
        (.returned ((traffic.rpc call).answer (traffic.fate call) s.daemon.world)) := by
  have hroom : s.worker.maxDepth ≠ 0 := h.room.ne'
  have hrun : s.run traffic maxDepth (Server.roundTrip call) =
      { daemon := s.daemon.serve (traffic.rpc call) (traffic.fate call)
        worker :=
          { s.worker with
            runs := Function.update s.worker.runs call
              (.returned ((traffic.rpc call).answer (traffic.fate call) s.daemon.world))
            futures := Function.update s.worker.futures call
              (some ((traffic.rpc call).answer (traffic.fate call) s.daemon.world))
            accepted := s.worker.accepted ++ [call]
            executed := s.worker.executed ++ [call] } } := by
    simp [Server.roundTrip, step, h.serving, QueueStep.event, EngineWorker.step, hcall,
      EngineWorker.enqueue, h.accepting, h.queue, h.ready, LoopState.notified,
      EngineWorker.loopSection, execute, halive, EngineWorker.finish, hroom]
  rw [hrun]
  exact ⟨⟨halive, h.ready, h.queue, h.accepting, h.room⟩, rfl, rfl⟩

end Server

end Daichod
