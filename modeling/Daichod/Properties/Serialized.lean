import Daichod.Engine.Worker
import Mathlib.Data.Countable.Basic
import Mathlib.Logic.Denumerable

/-!
# Daichod.Properties.Serialized

**The engine queue loses, duplicates and reorders nothing** (`queue_serialized`), however
the threads that call `Run` and `Drain` and the engine thread itself are interleaved.

Safety is read off the invariant `Coherent`. That an accepted task is executed at all needs
a schedule that lets every thread go on (`Fair`): a task behind others moves up as they
finish, and the loop is never left asleep with work to do.

## Proof shape

The safety part is one state's matter: `Coherent` says that what was executed, what runs and what
is queued are the accepted tasks in order, and every field of `Serialized` is read off it
(`Coherent.serialized`); only the two fields that compare two states also need `Later`.

The liveness part goes by leads-to. `Behind k` holds of a state in which `k` tasks are done and
more are accepted. From each of the three states in which a loop can then be (running, ready,
asleep) a fair schedule leads to `k + 1` tasks done: `running_leadsTo` needs the end of the task,
`ready_leadsTo` a turn of the loop and then the former, `asleep_leadsTo` a notification and then
both. `executed_length_leadsTo` repeats it as often as tasks were accepted.
-/

universe u v w

namespace Daichod.EngineWorker

variable {ι : Type u} {δ : Type v} {ρ : Type w} [DecidableEq ι] [DecidableEq δ]

/-- The tasks whose execution has begun, in order. -/
def started (s : EngineWorker ι δ ρ) : List ι := s.executed ++ s.loop.task

/-- What the callers of a queue rely on, in a state `s` and any later one `s'`. -/
structure Serialized (maxDepth : ℕ) (s s' : EngineWorker ι δ ρ) : Prop where
  /-- Tasks are executed in the order in which they were accepted. -/
  ordered : s.started <+: s.accepted
  /-- No task is executed twice. -/
  once : s.started.Nodup
  /-- No task is lost: one that has not begun is in the queue. -/
  kept : ∀ call ∈ s.accepted, call ∈ s.started ∨ call ∈ s.queue
  /-- A `Run` that returned gave the result of its own, executed task. -/
  answered : ∀ call result, s.runs call = .returned result →
    call ∈ s.executed ∧ s.futures call = some result
  /-- A `Run` that threw never has its task executed. -/
  rejected : ∀ call, (s.runs call).Rejected → call ∉ s'.started
  bounded : s.queue.length ≤ maxDepth
  /-- Nothing is accepted once `Drain` has begun. -/
  closed : s.stopping = true → s'.accepted = s.accepted
  /-- The loop leaves nothing behind, -/
  exited : s.loop = .exited → s.queue = [] ∧ s.executed = s.accepted
  /-- and a `Drain` that returned waited for that. -/
  drained : ∀ call, s.drains call = .returned → s.loop = .exited

variable {s : EngineWorker ι δ ρ}

omit [DecidableEq ι] [DecidableEq δ] in
/-- What has begun is an initial part of what was accepted. -/
theorem Coherent.started_prefix (h : s.Coherent) : s.started <+: s.accepted := by
  rw [h.order]
  exact List.prefix_append _ _

omit [DecidableEq ι] [DecidableEq δ] in
/-- An exited loop has executed all there was. -/
theorem Coherent.executed_of_exited (h : s.Coherent) (hexited : s.loop = .exited) :
    s.executed = s.accepted := by
  have horder := h.order
  rw [hexited, (h.exited hexited).2] at horder
  simpa [LoopState.task] using horder.symm

omit [DecidableEq ι] [DecidableEq δ] in
/-- The invariant, in a state and a later one, gives the safety part. -/
theorem Coherent.serialized {s' : EngineWorker ι δ ρ} {maxDepth : ℕ} (h : s.Coherent)
    (h' : s'.Coherent) (hlater : Later s s') (hdepth : s.maxDepth = maxDepth) :
    Serialized maxDepth s s' where
  ordered := h.started_prefix
  once := h.nodup.sublist h.started_prefix.sublist
  kept call hcall := by
    rw [h.order] at hcall
    exact List.mem_append.mp hcall
  answered call result hreturned := by
    have hfuture := h.returned call result hreturned
    exact ⟨(h.results call).mp (by rw [hfuture]; rfl), hfuture⟩
  -- A rejected call stays rejected, and a rejected call is not among the accepted ones.
  rejected call hrejected hstarted := by
    have haccepted := (h'.called call).mp (h'.started_prefix.subset hstarted)
    exact (hlater.rejected call hrejected).not_accepted haccepted
  bounded := hdepth ▸ h.bounded
  closed hstopping := (hlater.closed hstopping).2
  exited hexited := ⟨(h.exited hexited).2, h.executed_of_exited hexited⟩
  drained := h.drained

/-! ### Every accepted task gets its turn

A measure that never decreases, the number of tasks executed, and four reasons why it grows in
time: a running task ends, a loop that is ready takes the next one, and a loop that sleeps is
woken by whoever owes it a notification, be that a `Run` or a `Drain`. Each reason is a leads-to
rule of the machine library, and they chain up to one task more. -/

/-- Every thread goes on: the loop, the tasks it runs, and whoever owes it a notification. -/
structure Fair (schedule : ℕ → Event ι δ ρ) : Prop where
  loop : Machine.Often schedule (· = .loop)
  finish : Machine.Often schedule fun e => ∃ result, e = .finish result
  notify : ∀ call, Machine.Often schedule (· = .notify call)
  drainNotify : ∀ call, Machine.Often schedule (· = .drainNotify call)

omit [DecidableEq ι] [DecidableEq δ] in
/-- There are fair schedules. -/
theorem exists_fair [Countable ι] [Countable δ] [Nonempty ρ] :
    ∃ schedule : ℕ → Event ι δ ρ, Fair schedule := by
  obtain ⟨result⟩ := ‹Nonempty ρ›
  -- Every event to be repeated, once for each number.
  obtain ⟨f, hf⟩ := exists_surjective_nat ((Bool ⊕ ι ⊕ δ) × ℕ)
  -- each event comes once for each number, and only finitely many come before `n`
  have often : ∀ x : Bool ⊕ ι ⊕ δ, Machine.Often (fun n => (f n).1) (· = x) := by
    intro x n
    by_contra hnone
    push Not at hnone
    choose g hg using fun k => hf (x, k)
    have hinjective : Function.Injective g := by
      intro k k' hk
      have heq := (hg k).symm.trans ((congrArg f hk).trans (hg k'))
      exact congrArg Prod.snd heq
    have hbounded : ∀ k, g k < n := fun k => by
      by_contra hk
      exact hnone (g k) (Nat.not_lt.mp hk) (by rw [hg])
    refine not_injective_infinite_finite (fun k => (⟨g k, hbounded k⟩ : Fin n)) fun k k' hk => ?_
    exact hinjective (congrArg Fin.val hk)
  -- A number's event is read off its first component: the loop, the end of a task, and one
  -- notification for every call there is.
  refine ⟨fun n => match (f n).1 with
    | .inl true => .loop
    | .inl false => .finish result
    | .inr (.inl call) => .notify call
    | .inr (.inr call) => .drainNotify call, ?_, ?_, ?_, ?_⟩
  · intro n
    obtain ⟨m, hm, hx⟩ := often (.inl true) n
    exact ⟨m, hm, by simp only [hx]⟩
  · intro n
    obtain ⟨m, hm, hx⟩ := often (.inl false) n
    exact ⟨m, hm, result, by simp only [hx]⟩
  · intro call n
    obtain ⟨m, hm, hx⟩ := often (.inr (.inl call)) n
    exact ⟨m, hm, by simp only [hx]⟩
  · intro call n
    obtain ⟨m, hm, hx⟩ := often (.inr (.inr call)) n
    exact ⟨m, hm, by simp only [hx]⟩

/-- `k` tasks are executed, and there are more to do. -/
structure Behind (k : ℕ) (s : EngineWorker ι δ ρ) : Prop where
  coherent : s.Coherent
  executed : s.executed.length = k
  more : k < s.accepted.length

variable {k : ℕ} {e : Event ι δ ρ}

/-- A step leaves as many to do, or one more is done. -/
theorem Behind.step (h : Behind k s) (e : Event ι δ ρ) :
    Behind k (s.step e) ∨ k < (s.step e).executed.length := by
  have hlater := later_step s e
  have hexecuted := hlater.executed.length_le
  have haccepted := hlater.accepted.length_le
  rw [h.executed] at hexecuted
  rcases Nat.eq_or_lt_of_le hexecuted with heq | hlt
  · exact Or.inl ⟨h.coherent.step e, heq.symm, Nat.lt_of_lt_of_le h.more haccepted⟩
  · exact Or.inr hlt

omit [DecidableEq ι] [DecidableEq δ] in
/-- Between two tasks there is work in the queue. -/
theorem Behind.queue_ne_nil (h : Behind k s) (htask : s.loop.task = []) : s.queue ≠ [] := by
  intro hqueue
  -- Otherwise all that was accepted is executed, against `more`.
  have hmore := h.more
  rw [h.coherent.order, htask, hqueue, List.append_nil, List.append_nil, h.executed] at hmore
  exact Nat.lt_irrefl k hmore

/-- Only its end takes the loop out of a task, only its own section out of `ready`, and only
a notification or a wake-up out of its sleep. -/
theorem step_loop (s : EngineWorker ι δ ρ) (e : Event ι δ ρ) :
    (s.step e).loop = s.loop ∨ (s.step e).loop = s.loop.notified ∨
      (e = .loop ∧ s.loop = .ready) ∨
      ∃ task result, e = .finish result ∧ s.loop = .running task := by
  cases e with
  | enqueue call =>
    left
    simp only [step, enqueue]
    split
    · split
      · rfl
      · split <;> rfl
    · rfl
  | notify call =>
    simp only [step]
    split
    · exact Or.inr (Or.inl rfl)
    · exact Or.inl rfl
  | receive call =>
    left
    simp only [step]
    split <;> rfl
  | loop =>
    simp only [step]
    split
    · next hready => exact Or.inr (Or.inr (Or.inl ⟨trivial, hready⟩))
    · exact Or.inl rfl
  | wake => exact Or.inr (Or.inl rfl)
  | finish result =>
    simp only [step]
    split
    · next task hrunning => exact Or.inr (Or.inr (Or.inr ⟨task, result, rfl, hrunning⟩))
    · exact Or.inl rfl
  -- `Drain` only sets the flag; what it owes the loop is given in `drainNotify`.
  | drain call =>
    left
    simp only [step, drain]
    split
    · split <;> rfl
    · rfl
  | drainNotify call =>
    simp only [step]
    split
    · exact Or.inr (Or.inl rfl)
    · exact Or.inl rfl
  | join call =>
    left
    simp only [step, join]
    split
    · split
      · rfl
      · split <;> simp_all
    · rfl

/-- A notification that is due stays due until it has been given. -/
theorem step_notifying (s : EngineWorker ι δ ρ) (e : Event ι δ ρ) {call : ι}
    (h : s.runs call = .notifying) : (s.step e).runs call = .notifying ∨ e = .notify call := by
  -- An event that moves another call's state leaves this one's where it is.
  have other : ∀ {call' : ι} {state : RunState ρ}, s.runs call' ≠ .notifying →
      Function.update s.runs call' state call = .notifying := by
    intro call' state hne
    have hc : call ≠ call' := fun hc => hne (hc ▸ h)
    rw [Function.update_of_ne hc, h]
  cases e with
  | enqueue call' =>
    left
    simp only [step, enqueue]
    split
    · next hcall =>
      have hne : s.runs call' ≠ .notifying := by simp [hcall]
      split
      · exact other hne
      · split
        · exact other hne
        · exact other hne
    · exact h
  | notify call' =>
    by_cases hc : call' = call
    · exact Or.inr (by rw [hc])
    · left
      simp only [step]
      split
      · show Function.update s.runs call' _ call = _
        rw [Function.update_of_ne (Ne.symm hc), h]
      · exact h
  | receive call' =>
    left
    simp only [step]
    split
    · next hcall _ => exact other (by simp [hcall])
    · exact h
  | loop =>
    left
    simp only [step, loopSection]
    split
    · split
      · split <;> exact h
      · exact h
    · exact h
  | wake => exact Or.inl h
  | finish result =>
    left
    simp only [step]
    split <;> exact h
  | drain call' =>
    left
    simp only [step, drain]
    split
    · split <;> exact h
    · exact h
  | drainNotify call' =>
    left
    simp only [step]
    split <;> exact h
  | join call' =>
    left
    simp only [step, join]
    split
    · split
      · exact h
      · split <;> exact h
    · exact h

/-- The same for the notification that `Drain` owes. -/
theorem step_drainNotifying (s : EngineWorker ι δ ρ) (e : Event ι δ ρ) {call : δ}
    (h : s.drains call = .notifying) :
    (s.step e).drains call = .notifying ∨ e = .drainNotify call := by
  -- As above, for the calls of `Drain`.
  have other : ∀ {call' : δ} {state : DrainState}, s.drains call' ≠ .notifying →
      Function.update s.drains call' state call = .notifying := by
    intro call' state hne
    have hc : call ≠ call' := fun hc => hne (hc ▸ h)
    rw [Function.update_of_ne hc, h]
  cases e with
  | enqueue call' =>
    left
    simp only [step, enqueue]
    split
    · split
      · exact h
      · split <;> exact h
    · exact h
  | notify call' =>
    left
    simp only [step]
    split <;> exact h
  | receive call' =>
    left
    simp only [step]
    split <;> exact h
  | loop =>
    left
    simp only [step, loopSection]
    split
    · split
      · split <;> exact h
      · exact h
    · exact h
  | wake => exact Or.inl h
  | finish result =>
    left
    simp only [step]
    split <;> exact h
  | drain call' =>
    left
    simp only [step, drain]
    split
    · next hcall =>
      have hne : s.drains call' ≠ .notifying := by simp [hcall]
      split
      · exact other hne
      · exact other hne
    · exact h
  | drainNotify call' =>
    by_cases hc : call' = call
    · exact Or.inr (by rw [hc])
    · left
      simp only [step]
      split
      · show Function.update s.drains call' _ call = _
        rw [Function.update_of_ne (Ne.symm hc), h]
      · exact h
  | join call' =>
    left
    simp only [step, join]
    split
    · next hcall =>
      have hne : s.drains call' ≠ .notifying := by simp [hcall]
      split
      · exact other hne
      · split
        · exact other hne
        · exact h
    · exact h

/-- With work to do, the loop's section takes a task. -/
theorem Behind.loopSection_running (h : Behind k s) (hready : s.loop = .ready) :
    ∃ task, (s.step .loop).loop = .running task := by
  have hqueue := h.queue_ne_nil (by rw [hready]; rfl)
  simp only [EngineWorker.step, hready, loopSection]
  split
  · next hnil => exact absurd hnil hqueue
  · next task queue _ => exact ⟨task, rfl⟩

section Fair

variable {schedule : ℕ → Event ι δ ρ} {n : ℕ}

/-- The state after `n` events. -/
abbrev after (s : EngineWorker ι δ ρ) (schedule : ℕ → Event ι δ ρ) (n : ℕ) : EngineWorker ι δ ρ :=
  Machine.trace step s schedule n

/-- A task that runs comes to its end. -/
theorem running_leadsTo (hfair : Fair schedule) (h : Behind k (s.after schedule n))
    (hrunning : ∃ task, (s.after schedule n).loop = .running task) :
    ∃ m > n, k < (s.after schedule m).executed.length := by
  -- until it ends, the task keeps running
  have hlasts : ∀ (s : EngineWorker ι δ ρ) (e : Event ι δ ρ),
      (Behind k s ∧ ∃ task, s.loop = .running task) →
      (Behind k (s.step e) ∧ ∃ task, (s.step e).loop = .running task) ∨
        k < (s.step e).executed.length := by
    intro s e hA
    obtain ⟨hbehind, task, hrunning⟩ := hA
    rcases hbehind.step e with hbehind' | hdone
    · rcases step_loop s e with hloop | hloop | ⟨-, hready⟩ | ⟨task', result, rfl, hrunning'⟩
      · exact Or.inl ⟨hbehind', task, hloop.trans hrunning⟩
      · refine Or.inl ⟨hbehind', task, hloop.trans ?_⟩
        rw [hrunning]
        rfl
      · rw [hready] at hrunning
        cases hrunning
      · right
        simp only [step, hrunning', finish, List.length_append, List.length_singleton,
          hbehind.executed]
        omega
    · exact Or.inr hdone
  refine Machine.trace_leadsTo
    (fun s : EngineWorker ι δ ρ => Behind k s ∧ ∃ task, s.loop = .running task)
    (fun s => k < s.executed.length) hfair.finish hlasts ?_ ⟨h, hrunning⟩
  intro s e hA hfinishes
  obtain ⟨hbehind, task, hrunning⟩ := hA
  obtain ⟨result, rfl⟩ := hfinishes
  simp only [step, hrunning, finish, List.length_append, List.length_singleton, hbehind.executed]
  omega

/-- A loop that is ready takes a task, which comes to its end. -/
theorem ready_leadsTo (hfair : Fair schedule) (h : Behind k (s.after schedule n))
    (hready : (s.after schedule n).loop = .ready) :
    ∃ m > n, k < (s.after schedule m).executed.length := by
  -- there is a task in the queue, as no task runs and not all are done
  have hhelps : ∀ (s : EngineWorker ι δ ρ), (Behind k s ∧ s.loop = .ready) →
      (Behind k (s.step .loop) ∧ ∃ task, (s.step .loop).loop = .running task) ∨
        k < (s.step .loop).executed.length := by
    intro s hA
    obtain ⟨hbehind, hready⟩ := hA
    rcases hbehind.step .loop with hbehind' | hdone
    · exact Or.inl ⟨hbehind', hbehind.loopSection_running hready⟩
    · exact Or.inr hdone
  have hlasts : ∀ (s : EngineWorker ι δ ρ) (e : Event ι δ ρ), (Behind k s ∧ s.loop = .ready) →
      (Behind k (s.step e) ∧ (s.step e).loop = .ready) ∨
        (Behind k (s.step e) ∧ ∃ task, (s.step e).loop = .running task) ∨
          k < (s.step e).executed.length := by
    intro s e hA
    obtain ⟨hbehind, hready⟩ := hA
    rcases hbehind.step e with hbehind' | hdone
    · rcases step_loop s e with hloop | hloop | ⟨rfl, -⟩ | ⟨task', result, rfl, hrunning'⟩
      · exact Or.inl ⟨hbehind', hloop.trans hready⟩
      · refine Or.inl ⟨hbehind', hloop.trans ?_⟩
        rw [hready]
        rfl
      · exact Or.inr (hhelps s ⟨hbehind, hready⟩)
      · rw [hready] at hrunning'
        cases hrunning'
    · exact Or.inr (Or.inr hdone)
  obtain ⟨m, hm, ⟨hbehind, hrunning⟩ | hdone⟩ := Machine.trace_leadsTo
    (fun s : EngineWorker ι δ ρ => Behind k s ∧ s.loop = .ready)
    (fun s => (Behind k s ∧ ∃ task, s.loop = .running task) ∨ k < s.executed.length)
    hfair.loop hlasts (fun s e hs he => he ▸ hhelps s hs) ⟨h, hready⟩
  · obtain ⟨m', hm', hdone⟩ := running_leadsTo hfair hbehind hrunning
    exact ⟨m', by omega, hdone⟩
  · exact ⟨m, hm, hdone⟩

/-- A loop that sleeps while a notification `N` is due is woken by it, or before. -/
theorem asleep_leadsTo (hfair : Fair schedule) {due : EngineWorker ι δ ρ → Prop}
    {E : Event ι δ ρ → Prop} (hoften : Machine.Often schedule E)
    (hdue : ∀ s e, due s → due (s.step e) ∨ E e)
    (hwakes : ∀ s e, due s → E e → (s.step e).loop = s.loop.notified)
    (h : Behind k (s.after schedule n)) (hasleep : (s.after schedule n).loop = .asleep)
    (hnow : due (s.after schedule n)) : ∃ m > n, k < (s.after schedule m).executed.length := by
  -- The notification wakes the loop.
  have hhelps : ∀ (s : EngineWorker ι δ ρ) (e : Event ι δ ρ),
      (Behind k s ∧ s.loop = .asleep ∧ due s) → E e →
      (Behind k (s.step e) ∧ (s.step e).loop = .ready) ∨ k < (s.step e).executed.length := by
    intro s e hA hE
    obtain ⟨hbehind, hasleep, hnow⟩ := hA
    rcases hbehind.step e with hbehind' | hdone
    · refine Or.inl ⟨hbehind', ?_⟩
      rw [hwakes s e hnow hE, hasleep]
      rfl
    · exact Or.inr hdone
  -- until the notification comes it stays due, and the loop asleep
  have hlasts : ∀ (s : EngineWorker ι δ ρ) (e : Event ι δ ρ),
      (Behind k s ∧ s.loop = .asleep ∧ due s) →
      (Behind k (s.step e) ∧ (s.step e).loop = .asleep ∧ due (s.step e)) ∨
        (Behind k (s.step e) ∧ (s.step e).loop = .ready) ∨ k < (s.step e).executed.length := by
    intro s e hA
    obtain ⟨hbehind, hasleep, hnow⟩ := hA
    rcases hdue s e hnow with hnow' | hE
    · rcases hbehind.step e with hbehind' | hdone
      · rcases step_loop s e with hloop | hloop | ⟨-, hready⟩ | ⟨task', result, rfl, hrunning'⟩
        · exact Or.inl ⟨hbehind', hloop.trans hasleep, hnow'⟩
        · refine Or.inr (Or.inl ⟨hbehind', hloop.trans ?_⟩)
          rw [hasleep]
          rfl
        · rw [hasleep] at hready
          cases hready
        · rw [hasleep] at hrunning'
          cases hrunning'
      · exact Or.inr (Or.inr hdone)
    · exact Or.inr (hhelps s e ⟨hbehind, hasleep, hnow⟩ hE)
  obtain ⟨m, hm, ⟨hbehind, hready⟩ | hdone⟩ := Machine.trace_leadsTo
    (fun s : EngineWorker ι δ ρ => Behind k s ∧ s.loop = .asleep ∧ due s)
    (fun s => (Behind k s ∧ s.loop = .ready) ∨ k < s.executed.length)
    hoften hlasts hhelps ⟨h, hasleep, hnow⟩
  · obtain ⟨m', hm', hdone⟩ := ready_leadsTo hfair hbehind hready
    exact ⟨m', by omega, hdone⟩
  · exact ⟨m, hm, hdone⟩

/-- **One more task**: while there is work to do, some of it gets done. -/
theorem behind_leadsTo (hfair : Fair schedule) (h : Behind k (s.after schedule n)) :
    ∃ m > n, k < (s.after schedule m).executed.length := by
  cases hloop : (s.after schedule n).loop with
  | ready => exact ready_leadsTo hfair h hloop
  | running task => exact running_leadsTo hfair h ⟨task, hloop⟩
  -- A loop that has exited left nothing behind, so this state is not behind.
  | exited =>
    have hmore := h.more
    rw [← h.coherent.executed_of_exited hloop, h.executed] at hmore
    exact absurd hmore (Nat.lt_irrefl k)
  | asleep =>
    have hqueue := h.queue_ne_nil (by rw [hloop]; rfl)
    -- The invariant names who owes the sleeping loop its notification: a `Run` or a `Drain`.
    rcases h.coherent.awake hloop (Or.inl hqueue) with ⟨call, hnotifying⟩ | ⟨call, hnotifying⟩
    · refine asleep_leadsTo hfair (hfair.notify call) (fun s e hs => step_notifying s e hs) ?_ h
        hloop hnotifying
      rintro s e hs rfl
      simp only [step, hs]
    · refine asleep_leadsTo hfair (hfair.drainNotify call)
        (fun s e hs => step_drainNotifying s e hs) ?_ h hloop hnotifying
      rintro s e hs rfl
      simp only [step, hs]

/-- A schedule's later states are later in the sense of `Later`. -/
theorem later_after (s : EngineWorker ι δ ρ) (schedule : ℕ → Event ι δ ρ) (n m : ℕ) :
    Later (s.after schedule n) (s.after schedule (n + m)) := by
  induction m with
  | zero => exact .refl _
  | succ m ih => exact ih.trans (later_step _ _)

/-- On a fair schedule the queue is worked off. -/
theorem executed_length_leadsTo (hfair : Fair schedule) (hs : s.Coherent) (n : ℕ) {k : ℕ}
    (hk : k ≤ (s.after schedule n).accepted.length) :
    ∃ m ≥ n, k ≤ (s.after schedule m).executed.length := by
  induction k with
  | zero => exact ⟨n, Nat.le_refl n, Nat.zero_le _⟩
  | succ k ih =>
    obtain ⟨m, hm, hdone⟩ := ih (Nat.le_of_succ_le hk)
    -- Either exactly `k` tasks are done by then, and one more follows, or there are more already.
    rcases Nat.eq_or_lt_of_le hdone with heq | hlt
    · obtain ⟨j, rfl⟩ := Nat.exists_eq_add_of_le hm
      have haccepted := (later_after s schedule n j).accepted.length_le
      have hcoherent : (s.after schedule (n + j)).Coherent :=
        Machine.trace_invariant hs (fun s e h => h.step e) _
      obtain ⟨m', hm', hdone'⟩ := behind_leadsTo hfair ⟨hcoherent, heq.symm, by omega⟩
      exact ⟨m', by omega, hdone'⟩
    · exact ⟨m, hm, hlt⟩

/-- **Every accepted task is executed** in the end, on a fair schedule. -/
theorem accepted_leadsTo_executed (hfair : Fair schedule) (hs : s.Coherent) {call : ι}
    (hcall : call ∈ (s.after schedule n).accepted) :
    ∃ m ≥ n, call ∈ (s.after schedule m).executed := by
  obtain ⟨m, hm, hlength⟩ := executed_length_leadsTo hfair hs n (Nat.le_refl _)
  refine ⟨m, hm, ?_⟩
  obtain ⟨j, rfl⟩ := Nat.exists_eq_add_of_le hm
  have hcoherent : (s.after schedule (n + j)).Coherent :=
    Machine.trace_invariant hs (fun s e h => h.step e) _
  have hexecuted : (s.after schedule (n + j)).executed <+: (s.after schedule (n + j)).accepted :=
    (List.prefix_append _ _).trans hcoherent.started_prefix
  -- Both are prefixes of what is accepted by then, and the executed one is the longer.
  exact (List.prefix_of_prefix_length_le (later_after s schedule n j).accepted hexecuted
    hlength).subset hcall

end Fair

/-- **The queue loses, duplicates and reorders nothing**: in every run, whatever the tasks
and however its steps are interleaved; and on a fair schedule every accepted task is
executed. -/
theorem queue_serialized (maxDepth : ℕ) :
    (∀ events events' : List (Event ι δ ρ), Serialized maxDepth ((create maxDepth).run events)
      ((create maxDepth).run (events ++ events'))) ∧
    ∀ schedule : ℕ → Event ι δ ρ, Fair schedule → ∀ n,
      ∀ call ∈ ((create maxDepth).after schedule n).accepted,
        ∃ m ≥ n, call ∈ ((create maxDepth).after schedule m).executed := by
  constructor
  · intro events events'
    have hcreate : (create maxDepth : EngineWorker ι δ ρ).Coherent := create_coherent maxDepth
    have hcoherent := run_coherent hcreate events
    rw [run, run, Machine.run_append]
    exact hcoherent.serialized (run_coherent hcoherent events') (later_run _ _)
      (later_run (create maxDepth) events).maxDepth
  · intro schedule hfair n call hcall
    exact accepted_leadsTo_executed hfair (create_coherent maxDepth) hcall

end Daichod.EngineWorker
