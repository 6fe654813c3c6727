import Daichod.Library.Machine
import Mathlib.Data.List.Nodup
import Mathlib.Logic.Function.Basic

/-!
# Daichod.Engine.Worker

`engine/worker.cpp`: the queue in front of the single engine thread, as a machine whose
steps are the mutex-protected sections and what happens between them.

The machine is over arbitrary calls of `Run` (`ι`: any number of threads, each calling as
often as it likes), calls of `Drain` (`δ`) and results of tasks (`ρ`: values and
exceptions alike, since a `packaged_task` keeps both for its caller). An event that is not
due in a state changes nothing.

`accepted` and `executed` are history, not data: no code reads them. They list the calls
whose task was put into the queue and those whose task has run to its end, each in order.

## Proof shape

The invariant is `Coherent`: the history lists and the data agree (a task that was accepted has
been run, is running, or waits, in order), and nobody sleeps through work. Every section of the
code changes few fields, so its lemma starts from the invariant of the old state (`{ h with .. }`)
and proves the clauses that mention what has changed. The delicate clause is `awake`: the loop
goes to sleep only with an empty queue, and whoever then puts a task in, or sets `stopping_`,
still has its `notify_one` to make.

What only ever grows over a run is collected in `Later`.
-/

universe u v w

namespace Daichod

/-- Where a call of `Run` stands. -/
inductive RunState (ρ : Type w)
  | notCalled
  /-- Its task is in the queue; `notify_one` is still to come. -/
  | notifying
  /-- In `future.get()`. -/
  | waiting
  | returned (result : ρ)
  | queueFull
  | workerStopped

/-- Where a call of `Drain` stands. -/
inductive DrainState
  | notCalled
  /-- `stopping_` is set; `notify_one` is still to come. -/
  | notifying
  | joining
  | returned
  deriving Repr, DecidableEq

/-- Where `Loop` stands. -/
inductive LoopState (ι : Type u)
  /-- About to take the lock and look at the queue. -/
  | ready
  /-- Asleep in `cv_.wait`. -/
  | asleep
  | running (task : ι)
  | exited
  deriving Repr, DecidableEq

/-- The task the loop has taken and not finished. -/
def LoopState.task {ι : Type u} : LoopState ι → List ι
  | .running task => [task]
  | .ready | .asleep | .exited => []

/-- `cv_.notify_one()`: the loop is the only one that waits. -/
def LoopState.notified {ι : Type u} : LoopState ι → LoopState ι
  | .asleep => .ready
  | loop => loop

/-- `EngineWorker`, with the calls into it. -/
structure EngineWorker (ι : Type u) (δ : Type v) (ρ : Type w) where
  queue : List ι
  maxDepth : ℕ
  stopping : Bool
  joinable : Bool
  loop : LoopState ι
  runs : ι → RunState ρ
  drains : δ → DrainState
  /-- The results kept for the callers. -/
  futures : ι → Option ρ
  accepted : List ι
  executed : List ι

namespace EngineWorker

variable {ι : Type u} {δ : Type v} {ρ : Type w} [DecidableEq ι] [DecidableEq δ]

/-- What can happen next. -/
inductive Event (ι : Type u) (δ : Type v) (ρ : Type w)
  /-- The locked section of `Enqueue`. -/
  | enqueue (call : ι)
  /-- Its `notify_one`. -/
  | notify (call : ι)
  /-- `future.get()` returns or throws what the task left. -/
  | receive (call : ι)
  /-- The locked section of `Loop`. -/
  | loop
  /-- `cv_.wait` wakes up for no reason. -/
  | wake
  /-- The running task returns or throws. -/
  | finish (result : ρ)
  /-- The locked section of `Drain`. -/
  | drain (call : δ)
  /-- Its `notify_one`. -/
  | drainNotify (call : δ)
  | join (call : δ)

variable (s : EngineWorker ι δ ρ)

/-- The locked section of `Enqueue`. -/
def enqueue (call : ι) : EngineWorker ι δ ρ :=
  if s.stopping then { s with runs := Function.update s.runs call .workerStopped }
  else if s.queue.length ≥ s.maxDepth then
    { s with runs := Function.update s.runs call .queueFull }
  else
    { s with
      queue := s.queue ++ [call]
      runs := Function.update s.runs call .notifying
      accepted := s.accepted ++ [call] }

/-- The locked section of `Loop`: wait, leave, or take the first task. -/
def loopSection : EngineWorker ι δ ρ :=
  match s.queue with
  | [] => if s.stopping then { s with loop := .exited } else { s with loop := .asleep }
  | task :: queue => { s with queue, loop := .running task }

/-- The task ends; its result, or what it threw, is kept for its caller. -/
def finish (task : ι) (result : ρ) : EngineWorker ι δ ρ :=
  { s with
    loop := .ready
    futures := Function.update s.futures task (some result)
    executed := s.executed ++ [task] }

/-- The locked section of `Drain`. -/
def drain (call : δ) : EngineWorker ι δ ρ :=
  if s.stopping && !s.joinable then { s with drains := Function.update s.drains call .returned }
  else { s with stopping := true, drains := Function.update s.drains call .notifying }

/-- `if (thread_.joinable()) thread_.join()`, which blocks until the loop has exited. -/
def join (call : δ) : EngineWorker ι δ ρ :=
  if !s.joinable then { s with drains := Function.update s.drains call .returned }
  else
    match s.loop with
    | .exited => { s with joinable := false, drains := Function.update s.drains call .returned }
    | _ => s

/-- One event. -/
def step : Event ι δ ρ → EngineWorker ι δ ρ
  | .enqueue call =>
    match s.runs call with
    | .notCalled => s.enqueue call
    | _ => s
  | .notify call =>
    match s.runs call with
    | .notifying =>
      { s with loop := s.loop.notified, runs := Function.update s.runs call .waiting }
    | _ => s
  | .receive call =>
    match s.runs call, s.futures call with
    | .waiting, some result => { s with runs := Function.update s.runs call (.returned result) }
    | _, _ => s
  | .loop =>
    match s.loop with
    | .ready => s.loopSection
    | _ => s
  | .wake => { s with loop := s.loop.notified }
  | .finish result =>
    match s.loop with
    | .running task => s.finish task result
    | _ => s
  | .drain call =>
    match s.drains call with
    | .notCalled => s.drain call
    | _ => s
  | .drainNotify call =>
    match s.drains call with
    | .notifying =>
      { s with loop := s.loop.notified, drains := Function.update s.drains call .joining }
    | _ => s
  | .join call =>
    match s.drains call with
    | .joining => s.join call
    | _ => s

/-- The worker after a run. -/
abbrev run (events : List (Event ι δ ρ)) : EngineWorker ι δ ρ := Machine.run step s events

/-- `EngineWorker(max_queue_depth)`. -/
def create (maxDepth : ℕ) : EngineWorker ι δ ρ :=
  { queue := [], maxDepth, stopping := false, joinable := true, loop := .ready
    runs := fun _ => .notCalled, drains := fun _ => .notCalled, futures := fun _ => none
    accepted := [], executed := [] }

end EngineWorker

/-- The call's task was put into the queue. -/
def RunState.Accepted {ρ : Type w} : RunState ρ → Prop
  | .notifying | .waiting | .returned _ => True
  | .notCalled | .queueFull | .workerStopped => False

/-- The call has its result. -/
def RunState.isReturned {ρ : Type w} : RunState ρ → Bool
  | .returned _ => true
  | .notCalled | .notifying | .waiting | .queueFull | .workerStopped => false

/-- The call threw without its task having been put into the queue. -/
def RunState.Rejected {ρ : Type w} : RunState ρ → Prop
  | .queueFull | .workerStopped => True
  | .notCalled | .notifying | .waiting | .returned _ => False

/-- A call turned away is none of the accepted ones. -/
theorem RunState.Rejected.not_accepted {ρ : Type w} {r : RunState ρ} (h : r.Rejected) :
    ¬r.Accepted := by
  cases r <;> simp [Rejected, Accepted] at h ⊢

/-! ### The invariant

One clause for each fact that the sections of the code rely on, or that a caller of `Run` does. -/

namespace LoopState

variable {ι : Type u} {loop : LoopState ι}

/-- Waking up takes no task. -/
@[simp] theorem notified_task : loop.notified.task = loop.task := by
  cases loop <;> rfl

/-- Whoever is notified does not sleep. -/
theorem notified_ne_asleep : loop.notified ≠ .asleep := by
  cases loop <;> simp [notified]

/-- A loop that is gone cannot be woken. -/
@[simp] theorem notified_eq_exited : loop.notified = .exited ↔ loop = .exited := by
  cases loop <;> simp [notified]

end LoopState

namespace EngineWorker

variable {ι : Type u} {δ : Type v} {ρ : Type w}

/-- A `notify_one` is on its way. -/
def NotifyDue (s : EngineWorker ι δ ρ) : Prop :=
  (∃ call, s.runs call = .notifying) ∨ ∃ call, s.drains call = .notifying

/-- What holds between any two steps. -/
structure Coherent (s : EngineWorker ι δ ρ) : Prop where
  /-- A task accepted is executed, or running, or in the queue, in the order of acceptance. -/
  order : s.accepted = s.executed ++ s.loop.task ++ s.queue
  nodup : s.accepted.Nodup
  called : ∀ call, call ∈ s.accepted ↔ (s.runs call).Accepted
  bounded : s.queue.length ≤ s.maxDepth
  exited : s.loop = .exited → s.stopping = true ∧ s.queue = []
  /-- The loop does not sleep through work or the end. -/
  awake : s.loop = .asleep → s.queue ≠ [] ∨ s.stopping = true → s.NotifyDue
  results : ∀ call, (s.futures call).isSome = true ↔ call ∈ s.executed
  returned : ∀ call result, s.runs call = .returned result → s.futures call = some result
  joined : s.joinable = false → s.loop = .exited
  drained : ∀ call, s.drains call = .returned → s.loop = .exited

/-- The invariant of a new worker. -/
theorem create_coherent [DecidableEq ι] [DecidableEq δ] (maxDepth : ℕ) :
    (create maxDepth : EngineWorker ι δ ρ).Coherent where
  order := rfl
  nodup := List.nodup_nil
  called call := by simp [create, RunState.Accepted]
  bounded := Nat.zero_le _
  exited h := by cases h
  awake h := by cases h
  results call := by simp [create]
  returned call result h := by cases h
  joined h := by cases h
  drained call h := by cases h

variable [DecidableEq ι] [DecidableEq δ] {s : EngineWorker ι δ ρ}

namespace Coherent

variable (h : s.Coherent)

include h

omit [DecidableEq δ] in
/-- A call that changes its state without entering or leaving the queue. -/
theorem setRun {call : ι} {state : RunState ρ}
    (haccepted : state.Accepted ↔ (s.runs call).Accepted)
    (hnotify : s.runs call = .notifying → s.loop ≠ .asleep)
    (hreturned : ∀ result, state = .returned result → s.futures call = some result) :
    ({ s with runs := Function.update s.runs call state } : EngineWorker ι δ ρ).Coherent :=
  { h with
    called := by
      intro call'
      -- The call itself is accepted after as before; the others are untouched.
      by_cases hc : call' = call
      · subst hc
        simp only [Function.update_self]
        exact (h.called _).trans haccepted.symm
      · simp only [Function.update_of_ne hc]
        exact h.called call'
    awake := by
      intro hasleep hwork
      -- The notification that was due is still due, unless it was this call's, and then the loop is
      -- not asleep.
      rcases h.awake hasleep hwork with ⟨call', hnotifying⟩ | hdrain
      · left
        refine ⟨call', ?_⟩
        by_cases hc : call' = call
        · exact absurd hasleep (hnotify (hc ▸ hnotifying))
        · simpa only [Function.update_of_ne hc] using hnotifying
      · exact Or.inr hdrain
    returned := by
      intro call' result hrun
      by_cases hc : call' = call
      · subst hc
        simp only [Function.update_self] at hrun
        exact hreturned result hrun
      · simp only [Function.update_of_ne hc] at hrun
        exact h.returned call' result hrun }

omit [DecidableEq ι] in
/-- A call of `Drain` moves on, leaving the rest alone. -/
theorem setDrain {call : δ} {state : DrainState}
    (hnotify : s.drains call = .notifying → s.loop ≠ .asleep)
    (hreturned : state = .returned → s.loop = .exited) :
    ({ s with drains := Function.update s.drains call state } : EngineWorker ι δ ρ).Coherent :=
  { h with
    awake := by
      intro hasleep hwork
      rcases h.awake hasleep hwork with hrun | ⟨call', hnotifying⟩
      · exact Or.inl hrun
      · right
        refine ⟨call', ?_⟩
        by_cases hc : call' = call
        · exact absurd hasleep (hnotify (hc ▸ hnotifying))
        · simpa only [Function.update_of_ne hc] using hnotifying
    drained := by
      intro call' hdrain
      by_cases hc : call' = call
      · subst hc
        simp only [Function.update_self] at hdrain
        exact hreturned hdrain
      · simp only [Function.update_of_ne hc] at hdrain
        exact h.drained call' hdrain }

omit [DecidableEq ι] [DecidableEq δ] in
/-- The loop is woken, with reason or without. -/
theorem notified : ({ s with loop := s.loop.notified } : EngineWorker ι δ ρ).Coherent :=
  { h with
    order := by simpa using h.order
    exited := fun hexited => h.exited (LoopState.notified_eq_exited.mp hexited)
    awake := fun hasleep => absurd hasleep LoopState.notified_ne_asleep
    joined := fun hjoined => LoopState.notified_eq_exited.mpr (h.joined hjoined)
    drained := fun call hdrain => LoopState.notified_eq_exited.mpr (h.drained call hdrain) }

omit [DecidableEq δ] in
/-- **The locked section of `Enqueue`**: the call is turned away, or its task goes to the end of the
queue. -/
theorem enqueue {call : ι} (hcall : s.runs call = .notCalled) : (s.enqueue call).Coherent := by
  have hnot : ¬s.runs call = .notifying := by simp [hcall]
  unfold EngineWorker.enqueue
  split
  · exact h.setRun (by simp [hcall, RunState.Accepted]) (fun hn => absurd hn hnot) (by simp)
  · next hstopping =>
    split
    · exact h.setRun (by simp [hcall, RunState.Accepted]) (fun hn => absurd hn hnot) (by simp)
    · next hroom =>
      -- A call gets here once, so that no task is listed twice.
      have hnew : call ∉ s.accepted := by
        rw [h.called, hcall]
        exact id
      exact
        { h with
          order := by
            show s.accepted ++ [call] = s.executed ++ s.loop.task ++ (s.queue ++ [call])
            rw [h.order, List.append_assoc _ s.queue]
          nodup := by
            refine List.nodup_append.mpr ⟨h.nodup, List.nodup_singleton _, ?_⟩
            intro a ha b hb hab
            rw [List.mem_singleton] at hb
            exact hnew (hb ▸ hab ▸ ha)
          called := by
            intro call'
            by_cases hc : call' = call
            · subst hc
              simp [RunState.Accepted]
            · simp only [Function.update_of_ne hc, List.mem_append, List.mem_singleton, hc,
                or_false]
              exact h.called call'
          bounded := by
            simp only [List.length_append, List.length_singleton]
            omega
          exited := by
            intro hexited
            exact absurd (h.exited hexited).1 hstopping
          -- Its own notification is due now.
          awake := fun _ _ => Or.inl ⟨call, by simp⟩
          returned := by
            intro call' result hrun
            by_cases hc : call' = call
            · subst hc
              simp at hrun
            · simp only [Function.update_of_ne hc] at hrun
              exact h.returned call' result hrun }

omit [DecidableEq ι] [DecidableEq δ] in
/-- **The locked section of `Loop`**: with a queue it takes the first task; with none it sleeps, or
leaves if it has been told to stop. -/
theorem loopSection (hready : s.loop = .ready) : s.loopSection.Coherent := by
  have horder := h.order
  rw [hready] at horder
  have hjoinable : ¬s.joinable = false := fun hj => by
    have := h.joined hj
    rw [hready] at this
    cases this
  have hnotDrained : ∀ call, ¬s.drains call = .returned := fun call hd => by
    have := h.drained call hd
    rw [hready] at this
    cases this
  -- The loop was awake, so nothing has been joined or drained yet.
  unfold EngineWorker.loopSection
  cases hqueue : s.queue with
  | nil =>
    rw [hqueue] at horder
    dsimp only
    split
    · next hstopping =>
      exact
        { h with
          order := horder
          bounded := Nat.zero_le _
          exited := fun _ => ⟨hstopping, rfl⟩
          awake := fun hasleep => by cases hasleep
          joined := fun _ => rfl
          drained := fun _ _ => rfl }
    · next hstopping =>
      exact
        { h with
          order := horder
          bounded := Nat.zero_le _
          exited := fun hexited => by cases hexited
          awake := fun _ hwork => by
            rcases hwork with hwork | hwork
            · exact absurd rfl hwork
            · exact absurd hwork hstopping
          joined := fun hj => absurd hj hjoinable
          drained := fun call hd => absurd hd (hnotDrained call) }
  | cons task queue =>
    rw [hqueue] at horder
    dsimp only
    have hbounded := h.bounded
    rw [hqueue, List.length_cons] at hbounded
    exact
      { h with
        order := by
          rw [horder]
          simp [LoopState.task]
        bounded := Nat.le_of_succ_le hbounded
        exited := fun hexited => by cases hexited
        awake := fun hasleep => by cases hasleep
        joined := fun hj => absurd hj hjoinable
        drained := fun call hd => absurd hd (hnotDrained call) }

omit [DecidableEq δ] in
/-- **The end of a task**: it moves from the loop to the list of those executed, and its result
waits for its caller. -/
theorem finish {task : ι} {result : ρ} (hrunning : s.loop = .running task) :
    (s.finish task result).Coherent := by
  have hne : ¬s.loop = .exited := by simp [hrunning]
  have horder := h.order
  have hnodup := h.nodup
  rw [horder, hrunning] at hnodup
  have hnotExecuted : task ∉ s.executed := by
    intro hexecuted
    rw [List.append_assoc, List.nodup_append] at hnodup
    exact hnodup.2.2 task hexecuted task (by simp [LoopState.task]) rfl
  unfold EngineWorker.finish
  exact
    { h with
      order := by
        rw [horder, hrunning]
        simp [LoopState.task]
      exited := fun hexited => by cases hexited
      awake := fun hasleep => by cases hasleep
      results := by
        intro call
        by_cases hc : call = task
        · subst hc
          simp
        · simp only [Function.update_of_ne hc, List.mem_append, List.mem_singleton, hc, or_false]
          exact h.results call
      returned := by
        intro call result' hrun
        have hfuture := h.returned call result' hrun
        by_cases hc : call = task
        · subst hc
          -- A result that was returned came from an executed task, and this one was not.
          exact absurd ((h.results call).mp (by rw [hfuture]; rfl)) hnotExecuted
        · simpa only [Function.update_of_ne hc] using hfuture
      joined := fun hj => absurd (h.joined hj) hne
      drained := fun call hd => absurd (h.drained call hd) hne }

omit [DecidableEq ι] in
/-- **The locked section of `Drain`**. -/
theorem drain {call : δ} (hcall : s.drains call = .notCalled) : (s.drain call).Coherent := by
  unfold EngineWorker.drain
  split
  · next hdone =>
    rw [Bool.and_eq_true, Bool.not_eq_true'] at hdone
    exact h.setDrain (by simp [hcall]) (fun _ => h.joined hdone.2)
  · exact
      { h with
        exited := fun hexited => ⟨rfl, (h.exited hexited).2⟩
        awake := fun _ _ => Or.inr ⟨call, by simp⟩
        drained := by
          intro call' hdrain
          by_cases hc : call' = call
          · subst hc
            simp at hdrain
          · simp only [Function.update_of_ne hc] at hdrain
            exact h.drained call' hdrain }

omit [DecidableEq ι] in
/-- A joined loop is one that has exited. -/
theorem join {call : δ} (hcall : s.drains call = .joining) : (s.join call).Coherent := by
  unfold EngineWorker.join
  split
  · next hjoined => exact h.setDrain (by simp [hcall]) (fun _ => h.joined (by simpa using hjoined))
  · split
    · next hexited =>
      have hreturned : ({ s with drains := Function.update s.drains call .returned } :
          EngineWorker ι δ ρ).Coherent := h.setDrain (by simp [hcall]) (fun _ => hexited)
      exact { hreturned with joined := fun _ => hexited }
    · exact h

/-- **Every step keeps the invariant.** -/
theorem step (e : Event ι δ ρ) : (s.step e).Coherent := by
  -- An event that is not due changes nothing.
  cases e with
  | enqueue call =>
    simp only [EngineWorker.step]
    split
    · next hcall => exact h.enqueue hcall
    · exact h
  | notify call =>
    simp only [EngineWorker.step]
    split
    · next hcall =>
      exact h.notified.setRun (by simp [hcall, RunState.Accepted])
        (fun _ => LoopState.notified_ne_asleep) (by simp)
    · exact h
  | receive call =>
    simp only [EngineWorker.step]
    split
    · next result hcall hfuture =>
      exact h.setRun (by simp [hcall, RunState.Accepted]) (by simp [hcall])
        (fun result' hr => by cases hr; exact hfuture)
    · exact h
  | loop =>
    simp only [EngineWorker.step]
    split
    · next hready => exact h.loopSection hready
    · exact h
  | wake => exact h.notified
  | finish result =>
    simp only [EngineWorker.step]
    split
    · next task hrunning => exact h.finish hrunning
    · exact h
  | drain call =>
    simp only [EngineWorker.step]
    split
    · next hcall => exact h.drain hcall
    · exact h
  | drainNotify call =>
    simp only [EngineWorker.step]
    split
    · next hcall =>
      exact h.notified.setDrain (fun _ => LoopState.notified_ne_asleep) (by simp)
    · exact h
  | join call =>
    simp only [EngineWorker.step]
    split
    · next hcall => exact h.join hcall
    · exact h

end Coherent

/-- **The invariant of every run.** -/
theorem run_coherent (hs : s.Coherent) (events : List (Event ι δ ρ)) : (s.run events).Coherent :=
  (Machine.along_of_forall (P := fun _ => True).mpr fun _ _ => trivial).invariant hs
    fun _ e h _ => h.step e

/-! ### What lasts

Tasks are accepted and executed in an order that later events only extend, a call turned away
stays turned away, and a worker that is told to stop accepts nothing more. -/

/-- What later states of a worker keep of an earlier one. -/
structure Later (s s' : EngineWorker ι δ ρ) : Prop where
  accepted : s.accepted <+: s'.accepted
  executed : s.executed <+: s'.executed
  /-- Once it is stopping, nothing more is accepted. -/
  closed : s.stopping = true → s'.stopping = true ∧ s'.accepted = s.accepted
  rejected : ∀ call, (s.runs call).Rejected → (s'.runs call).Rejected
  maxDepth : s'.maxDepth = s.maxDepth

omit [DecidableEq ι] [DecidableEq δ] in
/-- Nothing has happened yet. -/
theorem Later.refl (s : EngineWorker ι δ ρ) : Later s s :=
  ⟨List.prefix_rfl, List.prefix_rfl, fun h => ⟨h, rfl⟩, fun _ h => h, rfl⟩

omit [DecidableEq ι] [DecidableEq δ] in
/-- What lasts adds up. -/
theorem Later.trans {s' s'' : EngineWorker ι δ ρ} (h : Later s s') (h' : Later s' s'') :
    Later s s'' where
  accepted := h.accepted.trans h'.accepted
  executed := h.executed.trans h'.executed
  closed hstopping := by
    obtain ⟨hstopping', heq⟩ := h.closed hstopping
    obtain ⟨hstopping'', heq'⟩ := h'.closed hstopping'
    exact ⟨hstopping'', heq'.trans heq⟩
  rejected call hr := h'.rejected call (h.rejected call hr)
  maxDepth := h'.maxDepth.trans h.maxDepth

omit [DecidableEq δ] in
/-- A call that was not rejected may change its state. -/
theorem Later.setRun {call : ι} {state : RunState ρ} (hcall : ¬(s.runs call).Rejected) :
    Later s { s with runs := Function.update s.runs call state } :=
  { Later.refl s with
    rejected := by
      intro call' hr
      have hc : call' ≠ call := fun hc => hcall (hc ▸ hr)
      simpa only [Function.update_of_ne hc] using hr }

/-- **One event** undoes nothing of it. -/
theorem later_step (s : EngineWorker ι δ ρ) (e : Event ι δ ρ) : Later s (s.step e) := by
  have same : ∀ {s' : EngineWorker ι δ ρ}, s'.accepted = s.accepted → s'.executed = s.executed →
      s'.stopping = s.stopping → s'.runs = s.runs → s'.maxDepth = s.maxDepth → Later s s' := by
    intro s' ha he hs hr hm
    exact ⟨ha ▸ List.prefix_rfl, he ▸ List.prefix_rfl, fun h => ⟨hs.trans h, ha⟩,
      fun call h => hr ▸ h, hm⟩
  -- Most sections leave the fields that matter alone; the others extend a list, or set the state of
  -- a call that had none.
  cases e with
  | enqueue call =>
    simp only [step]
    split
    · next hcall =>
      have hfree : ¬(s.runs call).Rejected := by simp [hcall, RunState.Rejected]
      unfold enqueue
      split
      · exact Later.setRun hfree
      · next hstopping =>
        split
        · exact Later.setRun hfree
        · have hcall : Later s { s with runs := Function.update s.runs call .notifying } :=
            Later.setRun hfree
          exact
            { hcall with
              accepted := List.prefix_append _ _
              closed := fun h => absurd h hstopping }
    · exact .refl s
  | notify call =>
    simp only [step]
    split
    · next hcall =>
      have h : Later s { s with loop := s.loop.notified } := same rfl rfl rfl rfl rfl
      exact h.trans (Later.setRun (by simp [hcall, RunState.Rejected]))
    · exact .refl s
  | receive call =>
    simp only [step]
    split
    · next hcall _ => exact Later.setRun (by simp [hcall, RunState.Rejected])
    · exact .refl s
  | loop =>
    simp only [step]
    split
    · unfold loopSection
      split
      · split
        · exact same rfl rfl rfl rfl rfl
        · exact same rfl rfl rfl rfl rfl
      · exact same rfl rfl rfl rfl rfl
    · exact .refl s
  | wake => exact same rfl rfl rfl rfl rfl
  | finish result =>
    simp only [step]
    split
    · exact { Later.refl s with executed := List.prefix_append _ _ }
    · exact .refl s
  | drain call =>
    simp only [step]
    split
    · unfold drain
      split
      · exact same rfl rfl rfl rfl rfl
      · exact { Later.refl s with closed := fun _ => ⟨rfl, rfl⟩ }
    · exact .refl s
  | drainNotify call =>
    simp only [step]
    split
    · exact same rfl rfl rfl rfl rfl
    · exact .refl s
  | join call =>
    simp only [step]
    split
    · unfold join
      split
      · exact same rfl rfl rfl rfl rfl
      · split
        · exact same rfl rfl rfl rfl rfl
        · exact .refl s
    · exact .refl s

/-- **No run** undoes anything of it. -/
theorem later_run (s : EngineWorker ι δ ρ) (events : List (Event ι δ ρ)) :
    Later s (s.run events) :=
  (Machine.along_of_forall (P := fun _ => True).mpr fun _ _ => trivial).invariant (I := Later s)
    (.refl s) fun s' e h _ => h.trans (later_step s' e)

end EngineWorker

end Daichod
